import SieveChain.CommandLine.Answer

/-!
# The program

Reads the arguments, the file and the input that a request needs, and writes the
answer. The log goes to the error output, the record to the output.
-/

namespace SieveChain.CommandLine

/-- Why a file could not be read. The number of an error may come with its sign turned
round. -/
def whyUnreadable (e : IO.Error) : Unreadable :=
  let ofNumber (n : UInt32) : Unreadable :=
    match OsError.ofNumber? (min n.toNat (-n).toNat) with
    | some known => .refused known
    | none => .other (toString e)
  match e with
  | .noFileOrDirectory _ n _ => ofNumber n
  | .inappropriateType _ n _ => ofNumber n
  | .permissionDenied _ n _ => ofNumber n
  | .resourceExhausted _ n _ => ofNumber n
  | .invalidArgument _ n _ => ofNumber n
  | _ => .other (toString e)

def readFile (path : List Char) : IO (Except Unreadable (List UInt8)) := do
  if '\x00' ∈ path then return .error .nullInPath
  try
    let bytes ← IO.FS.readBinFile (String.ofList path)
    return .ok bytes.toList
  catch e => return .error (whyUnreadable e)

/-- Reads chunks of input until it ends. -/
partial def readChunks (input : IO.FS.Stream) (chunks : Array (List UInt8)) :
    IO (Array (List UInt8)) := do
  let chunk ← input.read 65536
  if chunk.isEmpty then return chunks
  readChunks input (chunks.push chunk.toList)

def gather (request : Option Request) : IO Setting := do
  let log ← IO.getEnv "RUST_LOG"
  let setting : Setting := { log := log.map String.toList }
  match request with
  | some (.sieve { file := some path, .. }) =>
    let found ← readFile path
    return { setting with read := fun _ => found }
  | some (.stage _) =>
    let chunks ← readChunks (← IO.getStdin) #[]
    return { setting with input := chunks.toList }
  | _ => return setting

/-- Writes to the output, and says whether it takes what is written. -/
def put (bytes : List UInt8) : IO Bool := do
  if bytes.isEmpty then return true
  try
    let output ← IO.getStdout
    output.write (ByteArray.mk bytes.toArray)
    output.flush
    return true
  catch _ => return false

/-- Does what the arguments ask for, and says with which code to end. If the output does
not take what is written, the request is answered for an output that is full. -/
def perform (arguments : List (List Char)) : IO UInt32 := do
  let setting ← gather (parse arguments)
  let answer := setting.answer arguments
  let answer := if ← put answer.output then answer else
    ({ setting with full := true }).answer arguments
  for n in answer.notices do IO.eprintln n.fullLine
  return UInt32.ofNat answer.code

end SieveChain.CommandLine

def main (args : List String) : IO UInt32 :=
  SieveChain.CommandLine.perform (args.map String.toList)
