import ApiProbe.CommandLine.Program

/-!
The program as a command: it reads the files that its arguments name, runs and prints. No transport
comes with it, so requests fail.
-/
namespace ApiProbe.CommandLine

abbrev Found := List (Path × Option (List UInt8))

partial def load (p : Path) : IO Found := do
  let place := (← IO.currentDir) / p.text
  if ← place.isDir then
    let below ← (← place.readDir).toList.mapM fun entry => load (p.append [entry.fileName])
    return (p, none) :: below.flatten
  else if ← place.pathExists then
    return [(p, some (← IO.FS.readBinFile place).toList)]
  else
    return []

def loadWay (p : Path) : IO Found := do
  let way := (List.range p.parts.length).map fun n => Path.mk (p.parts.take n)
  let way ← way.filterM fun p => do
    return ← ((← IO.currentDir) / p.text).isDir
  return way.map (·, none)

def loadAll (texts : List String) : IO FileTree := do
  let paths :=
    match Arguments.read texts with
    | .ok args => Path.ofText ".env" :: args.paths
    | .error _ => []
  let found ← paths.mapM fun p => return (← loadWay p) ++ (← load p)
  return .ofPaths found.flatten

def loadVariables : IO Variables :=
  Settings.all.filterMapM fun setting => do
    let name := Settings.variableName setting
    return (← IO.getEnv name).map fun value => (name, some value)

def offline : Transport := fun _ _ _ =>
  { answer := .error (.problem { kind := .transport, message := "no network" }) }

def perform (texts : List String) : IO UInt32 := do
  let runId := (← IO.getRandomBytes 16).toList.flatMap fun b => Text.hex 2 b.toNat
  let out := run
    { environment := ← loadVariables
      tree := ← loadAll texts
      transport := offline
      now := .zero false
      runId := String.ofList runId } texts
  for line in out.logged do IO.eprintln line
  for line in out.printed do IO.println line
  match Arguments.read texts with
  | .error .help => IO.println usage
  | .error .usage => IO.eprintln usage
  | _ => pure ()
  match out.code with
  | .ok code => return code.toUInt32
  | .error failure =>
    IO.eprintln failure.text
    return 1

end ApiProbe.CommandLine

def main (texts : List String) : IO UInt32 :=
  ApiProbe.CommandLine.perform texts
