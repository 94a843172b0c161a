/-!
# Lines of a byte stream

* `Lines.split`: the lines of a stream of bytes, each with its newline.
* `Lines.decode?`: the text of a line, if its bytes are valid UTF-8.
-/

namespace Formula.Lines

/-- The byte that ends a line. -/
def newline : UInt8 := 10

/-- The lines of the rest of a stream, where `begun` is the line read so far, its last byte first.
-/
def splitFrom (begun : List UInt8) : List UInt8 → List (List UInt8)
  | [] => if begun = [] then [] else [begun.reverse]
  | byte :: rest =>
    if byte = newline then (byte :: begun).reverse :: splitFrom [] rest
    else splitFrom (byte :: begun) rest

/-- The lines of a stream, each with the newline that ends it. The last one may lack it. -/
def split (bytes : List UInt8) : List (List UInt8) :=
  splitFrom [] bytes

/-- The text that the bytes of a line encode. -/
def decode? (line : List UInt8) : Option String :=
  String.fromUTF8? ⟨line.toArray⟩

end Formula.Lines
