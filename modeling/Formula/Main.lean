import Formula.Dialogue

/-!
# The program

The dialogue is held on standard input and standard output. A line that is not valid UTF-8 ends it
with an error.
-/

namespace Formula

/-- The bytes of the next line, with its newline if it has one. -/
partial def readLine (stream : IO.FS.Stream) (begun : ByteArray) : IO ByteArray := do
  let next ← stream.read 1
  if next.isEmpty then return begun
  let line := begun ++ next
  if next[0]? = some Lines.newline then return line
  readLine stream line

/-- Holds the dialogue to its end, and tells why it broke off if it did. -/
partial def hold (d : Dialogue) (input output : IO.FS.Stream) : IO (Option InputError) := do
  output.putStr d.prompt
  output.flush
  let line ← readLine input .empty
  if line.isEmpty then return none
  match Lines.decode? line.toList with
  | none => return some .invalidText
  | some text =>
    let (reply, next) := d.respond text
    output.putStr reply
    hold next input output

end Formula

def main : IO UInt32 := do
  let error ← Formula.hold .start (← IO.getStdin) (← IO.getStdout)
  if let some e := error then IO.eprintln ("Error: " ++ e.message)
  return (Formula.exitCode error).toUInt32
