import ApiProbe.Proofs.Json.Spelling
import ApiProbe.Proofs.Value.Sameness

/-!
# Reading documents

A document in which no object repeats a name is read as what its value stands for, whatever its layout
is. With names repeated or not, the documents are just the texts that stand for something with no other
words than theirs.
-/

namespace ApiProbe

/-- Where no key comes twice, every entry stays. -/
theorem Datum.ofEntries_of_distinctKeys {entries : List (Datum × Datum)}
    (h : DistinctKeys entries) : ofEntries entries = entries := by
  have hfold : ∀ done : List (Datum × Datum), DistinctKeys (done ++ entries) →
      entries.foldl (fun done entry => insert entry.1 entry.2 done) done = done ++ entries := by
    clear h
    induction entries with
    | nil => exact fun done _ => (List.append_nil done).symm
    | cons e entries ih =>
        intro done h
        have hnew : ∀ f ∈ done, f.1.same e.1 = false := by
          rw [DistinctKeys, List.map_append, List.pairwise_append] at h
          exact fun f hf => h.2.2 f.1 (List.mem_map_of_mem hf) e.1 List.mem_cons_self
        rw [List.append_cons] at h
        rw [List.foldl_cons, insert_of_new hnew, ih _ h, ← List.append_cons]
  exact hfold [] h

namespace Json

namespace Phrase

mutual

/-- The data that a value stands for, unless there is a whole number of too many digits in it. -/
def datum? : Phrase → Option Datum
  | null => some .null
  | bool b => some (.bool b)
  | number n => n.datum?
  | string pieces => some (.string (String.ofList (decode pieces)))
  | array _ items => (itemData? items).map .list
  | object _ members => (memberData? members).map .dict

def itemData? : List (Spaced Phrase) → Option (List Datum)
  | [] => some []
  | ⟨_, p, _⟩ :: items => p.datum?.bind fun d => (itemData? items).map (d :: ·)

def memberData? : List (Spaced (Key × Phrase)) → Option (List (Datum × Datum))
  | [] => some []
  | ⟨_, (key, p), _⟩ :: members =>
    p.datum?.bind fun d => (memberData? members).map ((.string key.name, d) :: ·)

end

def spelling (p : Phrase) : Spelling :=
  ⟨p.chars, p.datum?⟩

def memberSpelling (member : Key × Phrase) : Key × Spelling :=
  (member.1, member.2.spelling)

theorem items?_spelling (items : List (Spaced Phrase)) :
    Spelling.items? (items.map (Spaced.map spelling)) = itemData? items := by
  induction items with
  | nil => rfl
  | cons s items ih =>
      rw [List.map_cons, Spelling.items?_cons, ih, itemData?]
      rfl

theorem members?_spelling (members : List (Spaced (Key × Phrase))) :
    Spelling.members? (members.map (Spaced.map memberSpelling)) = memberData? members := by
  induction members with
  | nil => rfl
  | cons m members ih =>
      rw [List.map_cons, Spelling.members?_cons, ih, memberData?, Spelling.member?, Option.bind_map]
      rfl

theorem keys_memberData? {members : List (Spaced (Key × Phrase))} {entries : List (Datum × Datum)}
    (h : memberData? members = some entries) :
    entries.map Prod.fst = members.map fun m => .string m.item.1.name := by
  induction members generalizing entries with
  | nil =>
      obtain rfl := Option.some.inj h
      rfl
  | cons m members ih =>
      obtain ⟨d, -, h⟩ := Option.bind_eq_some_iff.mp h
      obtain ⟨others, hothers, rfl⟩ := Option.map_eq_some_iff.mp h
      rw [List.map_cons, List.map_cons, ih hothers]

theorem everywhereItems_iff {P : List Key → Prop} {items : List (Spaced Phrase)} :
    EverywhereItems P items ↔ ∀ s ∈ items, s.item.Everywhere P := by
  induction items with
  | nil => simp [EverywhereItems]
  | cons s items ih => rw [EverywhereItems, ih, List.forall_mem_cons]

theorem everywhereMembers_iff {P : List Key → Prop} {entries : List (Spaced (Key × Phrase))} :
    EverywhereMembers P entries ↔ ∀ m ∈ entries, m.item.2.Everywhere P := by
  induction entries with
  | nil => simp [EverywhereMembers]
  | cons m entries ih => rw [EverywhereMembers, ih, List.forall_mem_cons]

/-- A value in which no object repeats a name is the text of what it stands for. -/
theorem denotes {p : Phrase} (h : p.DistinctNames) : Denotes literals p.chars p.datum? := by
  induction p with
  | null => exact .word (by simp [literals])
  | bool b => cases b <;> exact .word (by simp [literals])
  | number n => exact .number n
  | string pieces => exact .string pieces
  | array space items ih =>
      rw [DistinctNames, Everywhere, everywhereItems_iff] at h
      have hitems : ∀ s ∈ items.map (Spaced.map spelling),
          Denotes literals s.item.chars s.item.datum? := by
        rw [List.forall_mem_map]
        exact fun s hs => ih s hs (h s hs)
      have hdenotes := Denotes.array space _ hitems
      rw [listing_map, items?_spelling] at hdenotes
      rw [chars_array, datum?]
      exact hdenotes
  | object space members ih =>
      rw [DistinctNames, Everywhere, everywhereMembers_iff, List.map_map] at h
      have hmembers : ∀ m ∈ members.map (Spaced.map memberSpelling),
          Denotes literals m.item.2.chars m.item.2.datum? := by
        rw [List.forall_mem_map]
        exact fun m hm => ih m hm (h.2 m hm)
      have hmerged : (memberData? members).map (fun entries => Datum.dict (Datum.ofEntries entries))
          = (memberData? members).map .dict := by
        refine Option.map_congr fun entries hentries => ?_
        rw [Datum.ofEntries_of_distinctKeys]
        rw [Datum.DistinctKeys, keys_memberData? hentries, List.pairwise_map]
        refine (List.pairwise_map.mp h.1).imp fun hne => ?_
        rw [Datum.same_string, beq_eq_false_iff_ne]
        exact hne
      have hdenotes := Denotes.object space _ hmembers
      rw [listing_map, members?_spelling, hmerged] at hdenotes
      rw [chars_object, datum?]
      exact hdenotes

/-- The same layout around different texts of the items. -/
def Respelled {α β : Type} (text : α → List Char) (other : β → List Char) (s : Spaced α)
    (t : Spaced β) : Prop :=
  t.before = s.before ∧ other t.item = text s.item ∧ t.after = s.after

theorem listing_congr {α β : Type} {text : α → List Char} {other : β → List Char}
    {items : List (Spaced α)} {others : List (Spaced β)}
    (h : List.Forall₂ (Respelled text other) items others) :
    listing other others = listing text items := by
  have htexts : (others.map fun t => t.before.chars ++ other t.item ++ t.after.chars)
      = items.map fun s => s.before.chars ++ text s.item ++ s.after.chars := by
    induction h with
    | nil => rfl
    | cons hs _ ih => rw [List.map_cons, List.map_cons, ih, hs.1, hs.2.1, hs.2.2]
  rw [listing, listing, htexts]

/-- Every value has a text that stands for something, whether names are repeated or not. -/
theorem exists_denotes (p : Phrase) : ∃ d?, Denotes literals p.chars d? := by
  induction p with
  | null => exact ⟨some .null, .word (by simp [literals])⟩
  | bool b =>
      refine ⟨some (.bool b), ?_⟩
      cases b <;> exact .word (by simp [literals])
  | number n => exact ⟨_, .number n⟩
  | string pieces => exact ⟨_, .string pieces⟩
  | array space items ih =>
      obtain ⟨spellings, hspellings⟩ : ∃ spellings : List (Spaced Spelling), List.Forall₂
          (fun s t => Respelled chars Spelling.chars s t ∧
            Denotes literals t.item.chars t.item.datum?) items spellings := by
        refine exists_forall₂_of_forall fun s hs => ?_
        obtain ⟨d?, hd⟩ := ih s hs
        exact ⟨⟨s.before, ⟨s.item.chars, d?⟩, s.after⟩, ⟨rfl, rfl, rfl⟩, hd⟩
      have hdenotes := Denotes.array space spellings fun t ht => by
        obtain ⟨s, -, -, hd⟩ := exists_mem_left_of_forall₂ hspellings ht
        exact hd
      rw [listing_congr (hspellings.imp fun _ _ h => h.1), ← chars_array] at hdenotes
      exact ⟨_, hdenotes⟩
  | object space members ih =>
      obtain ⟨spellings, hspellings⟩ : ∃ spellings : List (Spaced (Key × Spelling)), List.Forall₂
          (fun m t => Respelled memberChars Spelling.memberChars m t ∧
            Denotes literals t.item.2.chars t.item.2.datum?) members spellings := by
        refine exists_forall₂_of_forall fun m hm => ?_
        obtain ⟨d?, hd⟩ := ih m hm
        exact ⟨⟨m.before, (m.item.1, ⟨m.item.2.chars, d?⟩), m.after⟩, ⟨rfl, rfl, rfl⟩, hd⟩
      have hdenotes := Denotes.object space spellings fun t ht => by
        obtain ⟨m, -, -, hd⟩ := exists_mem_left_of_forall₂ hspellings ht
        exact hd
      rw [listing_congr (hspellings.imp fun _ _ h => h.1), ← chars_object] at hdenotes
      exact ⟨_, hdenotes⟩

theorem exists_chars_eq (p : Phrase) :
    ∃ c cs, p.chars = c :: cs ∧ opening literals c = true := by
  obtain ⟨d?, hdenotes⟩ := p.exists_denotes
  exact hdenotes.exists_opening literals_ne_nil

/-- A text with no other words than those of documents is one of a value. -/
theorem exists_chars_of_denotes {cs : List Char} {d? : Option Datum}
    (h : Denotes literals cs d?) : ∃ p : Phrase, p.chars = cs := by
  induction h with
  | word h =>
      simp only [literals, List.mem_cons, List.not_mem_nil, or_false, Prod.mk.injEq] at h
      rcases h with ⟨rfl, -⟩ | ⟨rfl, -⟩ | ⟨rfl, -⟩
      · exact ⟨.null, rfl⟩
      · exact ⟨.bool true, rfl⟩
      · exact ⟨.bool false, rfl⟩
  | number n => exact ⟨.number n, rfl⟩
  | string pieces => exact ⟨.string pieces, rfl⟩
  | array space items _ ih =>
      obtain ⟨phrases, hphrases⟩ : ∃ phrases : List (Spaced Phrase),
          List.Forall₂ (Respelled Spelling.chars chars) items phrases := by
        refine exists_forall₂_of_forall fun s hs => ?_
        obtain ⟨p, hp⟩ := ih s hs
        exact ⟨⟨s.before, p, s.after⟩, rfl, hp, rfl⟩
      exact ⟨.array space phrases, by rw [chars_array, listing_congr hphrases]⟩
  | object space members _ ih =>
      obtain ⟨phrases, hphrases⟩ : ∃ phrases : List (Spaced (Key × Phrase)),
          List.Forall₂ (Respelled Spelling.memberChars memberChars) members phrases := by
        refine exists_forall₂_of_forall fun m hm => ?_
        obtain ⟨p, hp⟩ := ih m hm
        refine ⟨⟨m.before, (m.item.1, p), m.after⟩, rfl, ?_, rfl⟩
        rw [memberChars, Spelling.memberChars, hp]
      exact ⟨.object space phrases, by rw [chars_object, listing_congr hphrases]⟩

end Phrase

theorem Spaced.start_text (doc : Spaced Phrase) :
    ∀ c ∈ doc.text.toList.head?, c ∈ spaceChars ∨ opening literals c = true := by
  obtain ⟨⟨blanks, hblank⟩, p, after⟩ := doc
  rw [Spaced.text, String.toList_ofList, List.append_assoc]
  cases blanks with
  | nil =>
      obtain ⟨c, cs, hchars, hc⟩ := p.exists_chars_eq
      dsimp only
      rw [hchars, List.nil_append, List.cons_append, List.head?_cons]
      intro d hd
      exact Or.inr (Option.some.inj hd ▸ hc)
  | cons b blanks =>
      intro d hd
      exact Or.inl (Option.some.inj hd ▸ hblank b List.mem_cons_self)

/-- The texts of documents are those that stand for something with no other words than theirs. -/
theorem exists_denotesDocument_iff {text : String} :
    (∃ d?, DenotesDocument literals text d?) ↔ ∃ doc : Spaced Phrase, doc.text = text := by
  constructor
  · rintro ⟨d?, before, after, cs, hcs, htext⟩
    obtain ⟨p, rfl⟩ := Phrase.exists_chars_of_denotes hcs
    refine ⟨⟨before, p, after⟩, ?_⟩
    rw [Spaced.text, ← htext, String.ofList_toList]
  · rintro ⟨doc, rfl⟩
    obtain ⟨d?, hdenotes⟩ := doc.item.exists_denotes
    exact ⟨d?, doc.before, doc.after, _, hdenotes, String.toList_ofList⟩

/-- A document is read as what its value stands for. -/
theorem toOption_read (doc : Spaced Phrase) (h : doc.item.DistinctNames) :
    (read doc.text).toOption = doc.item.datum? := by
  have hdenotes := (doc.item.denotes h).mono literals_subset_words
  exact DenotesDocument.toOption_read ⟨doc.before, doc.after, _, hdenotes, String.toList_ofList⟩

end Json

end ApiProbe
