/-
The command line: shows the messages of a recorded stream, read from a file or from standard input. Its arguments are

    [--chunk-size N] [--skip N] [--max-message-size N] [INPUT]

and the exit status is 1 when the stream breaks off with an error, and 2 when the arguments make no sense.
-/
import MessageBus.Capture

namespace MessageBus.Main

/-- the options and the input file among the arguments -/
def parseArguments :
    List String → Capture.Options × Option String → Except String (Capture.Options × Option String)
  | [], parsed => .ok parsed
  | "--chunk-size" :: n :: rest, (options, input) => do
    parseArguments rest ({ options with chunkSize := ← number n }, input)
  | "--skip" :: n :: rest, (options, input) => do
    parseArguments rest ({ options with skip := ← number n }, input)
  | "--max-message-size" :: n :: rest, (options, input) => do
    parseArguments rest ({ options with maxMessageSize := ← number n }, input)
  | argument :: rest, (options, none) =>
    if argument.startsWith "-" then .error s!"unexpected argument {argument}"
    else parseArguments rest (options, some argument)
  | argument :: _, _ => .error s!"unexpected argument {argument}"
where
  number (text : String) : Except String Nat :=
    match text.toNat? with
    | some n => .ok n
    | none => .error s!"not a number: {text}"

/-- everything up to the end of a stream -/
partial def readAll (stream : IO.FS.Stream) (before : ByteArray) : IO ByteArray := do
  let chunk ← stream.read 65536
  if chunk.isEmpty then return before else readAll stream (before ++ chunk)

end MessageBus.Main

open MessageBus in
def main (arguments : List String) : IO UInt32 := do
  match Main.parseArguments arguments ({}, none) with
  | .error reason =>
    IO.eprintln reason
    return 2
  | .ok (options, input) =>
    let recording ← match input with
      | some file => IO.FS.readBinFile file
      | none => Main.readAll (← IO.getStdin) .empty
    let (lines, e) := Capture.transcript options recording.data.toList
    IO.print lines
    if let some e := e then IO.eprintln s!"Error: {e.message}"
    return Capture.exitStatus e
