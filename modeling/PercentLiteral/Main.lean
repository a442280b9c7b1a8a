/-
The program: it gathers what a run needs, runs it on the standard host, and does outside what the run did inside.

Of the file system only the way to the template and to the output file is looked at. Nothing is decided here.
-/
import PercentLiteral.Command.Run
import PercentLiteral.Command.Standard
import Std.Time.DateTime.Timestamp

namespace PercentLiteral.Command

/-- all that is left of a stream -/
partial def readRest (s : IO.FS.Stream) (start : ByteArray) : IO ByteArray := do
  let more ← s.read 65536
  if more.isEmpty then return start else readRest s (start ++ more)

/-- a text as a string; a surrogate, which a string cannot hold, is spelled out -/
def shown (t : Text) : String :=
  let spelled := t.flatMap fun c => if c.isSurrogate then text "\\u" ++ Text.hex 4 c.val else [c]
  String.ofList (spelled.map fun c => Char.ofNat c.val)

/-- what stands at a path -/
def probe (path : Text) : IO (Option FileTree.Node) := do
  try
    return some (.file (← IO.FS.readBinFile (shown path)).toList)
  catch e => match e with
    | .inappropriateType .. => return some .directory
    | _ => return none

/-- a tree with all that stands on the way to a path -/
def survey (t : FileTree) (path : Text) : IO FileTree := do
  let names := FileTree.names path
  let mut t := t
  for k in [0:names.length] do
    let way := normalizePath (Text.joined [.slash] (names.take (k + 1)))
    match t.place way with
    | .error _ => pure ()
    | .ok p =>
      if (t.node? p).isNone then
        if let some n ← probe way then t := t.put p n
  return t

/-- the variables of the environment -/
def readEnvironment : IO (List (Text × Text)) := do
  try
    let bytes ← IO.FS.readBinFile "/proc/self/environ"
    let all := ((Text.decodeUtf8 bytes.toList).toOption).getD []
    return (Text.fields .null all).filterMap (Text.cut .equals)
  catch _ => return []

/-- the seconds since 1970 -/
def readClock : IO Value := do
  let n := (← Std.Time.Timestamp.now).toNanosecondsSinceUnixEpoch.val.toNat
  return .float (Binary64.ofRatio false n 1000000000)

/-- what a run with these arguments is started with, and the files that it can see -/
def gather (arguments : List Text) : IO (Invocation × FileTree) := do
  let o := ((Options.parse arguments).toOption).getD {}
  let input ← if o.file = [.dash] then pure (← readRest (← IO.getStdin) .empty).toList else pure []
  let files ← (o.file :: o.output.toList).foldlM survey []
  return ({ arguments, environment := ← readEnvironment, input := .bytes input, now := ← readClock }, files)

/-- brings the files up to date that a run has written -/
def store (before after : FileTree) : IO Unit :=
  after.forM fun e => match e.2 with
    | .file content =>
      if before.node? e.1 = some (.file content) then return ()
      else IO.FS.writeBinFile (shown (normalizePath (Text.joined [.slash] e.1))) ⟨content.toArray⟩
    | .directory => return ()

/-- does what a run did, and gives its exit code -/
def perform (before : FileTree) (ending : Ending) (m : Machine) : IO UInt32 := do
  store before m.files
  (← IO.getStderr).putStr (shown m.complaints)
  let out ← IO.getStdout
  try
    out.putStr (shown m.printed)
    out.flush
  catch _ => pure ()
  match ending with
  | .exit code => return .ofNat code
  | .raised f =>
    (← IO.getStderr).putStrLn (shown (f.kind ++ text ": " ++ f.message))
    return 1

end PercentLiteral.Command

/-- the program -/
def main (args : List String) : IO UInt32 := do
  let (invocation, files) ← PercentLiteral.Command.gather (args.map PercentLiteral.text)
  match (PercentLiteral.Command.program { invocation with host := .standard }).from { files } with
  | (.ok ending, m) => PercentLiteral.Command.perform files ending m
  | (.error _, m) => PercentLiteral.Command.perform files (.exit 1) m
