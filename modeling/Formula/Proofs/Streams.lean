import Formula.Text.Lines
import Mathlib.Data.List.Infix

/-!
# Streams of lines

A stream is read line by line, each with the newline that ends it.

* `Lines.encode`: the bytes of a text; `Lines.decode?_eq_some_iff`.
* `Lines.Complete`: a stream that does not break off within a line; `Lines.split_append`.
* `Lines.first`, `Lines.rest`: what is read next, and what is left; `Lines.split_eq_cons`.
* **`Lines.exists_split_encode`**: the lines of a text are texts.
* **`Lines.split_cases`**: the lines of a stream are texts up to the first that is none.
-/

namespace Formula.Lines

/-! ## The bytes of a text -/

/-- The bytes that encode the text. -/
def encode (text : String) : List UInt8 :=
  text.toUTF8.data.toList

theorem encode_ofList (cs : List Char) :
    encode (String.ofList cs) = cs.flatMap String.utf8EncodeChar := by
  rw [encode, String.toUTF8_eq_toByteArray, String.toByteArray_ofList, List.utf8Encode]
  exact List.toList_data_toByteArray

theorem encode_append (text more : String) :
    encode (text ++ more) = encode text ++ encode more := by
  rw [encode, encode, encode, String.toUTF8_eq_toByteArray, String.toByteArray_append,
    ByteArray.data_append, Array.toList_append, String.toUTF8_eq_toByteArray,
    String.toUTF8_eq_toByteArray]

theorem decode?_encode (text : String) : decode? (encode text) = some text := by
  rw [decode?, encode, Array.toArray_toList, String.toUTF8_eq_toByteArray, String.fromUTF8?,
    dif_pos text.isValidUTF8]
  rfl

theorem decode?_eq_some_iff {line : List UInt8} {text : String} :
    decode? line = some text ↔ line = encode text := by
  constructor
  · intro h
    rw [decode?, String.fromUTF8?] at h
    split at h
    · cases h
      rfl
    · cases h
  · rintro rfl
    exact decode?_encode text

/-! ## One line after the other -/

/-- The stream is empty or ends with a newline. -/
def Complete (bytes : List UInt8) : Prop :=
  bytes = [] ∨ [newline] <:+ bytes

/-- The first line of a stream, up to its newline or to the end. -/
def first (bytes : List UInt8) : List UInt8 :=
  bytes.takeWhile (· ≠ newline) ++ (bytes.dropWhile (· ≠ newline)).take 1

/-- What is left of a stream behind its first line. -/
def rest (bytes : List UInt8) : List UInt8 :=
  (bytes.dropWhile (· ≠ newline)).drop 1

theorem splitFrom_newline (begun bytes more : List UInt8) :
    splitFrom begun (bytes ++ newline :: more) =
      splitFrom begun (bytes ++ [newline]) ++ split more := by
  induction bytes generalizing begun with
  | nil => simp [splitFrom, split]
  | cons byte bytes ih =>
    by_cases h : byte = newline
    · simp [splitFrom, h, ih]
    · simp [splitFrom, h, ih]

/-- **What comes behind complete lines is split by itself.** -/
theorem split_append {bytes : List UInt8} (h : Complete bytes) (more : List UInt8) :
    split (bytes ++ more) = split bytes ++ split more := by
  obtain rfl | ⟨before, rfl⟩ := h
  · rfl
  · rw [List.append_assoc]
    exact splitFrom_newline [] before more

theorem splitFrom_eq_cons {begun bytes : List UInt8} (h : begun ≠ [] ∨ bytes ≠ []) :
    splitFrom begun bytes = (begun.reverse ++ first bytes) :: split (rest bytes) := by
  induction bytes generalizing begun with
  | nil =>
    have hne : begun ≠ [] := h.resolve_right fun hne => hne rfl
    simp [splitFrom, first, rest, split, hne]
  | cons byte bytes ih =>
    by_cases heq : byte = newline
    · simp [splitFrom, first, rest, split, heq]
    · have hne : byte :: begun ≠ [] := List.cons_ne_nil _ _
      have hsplit := ih (.inl hne)
      simp [splitFrom, heq, hsplit, first, rest]

/-- **A stream that is not empty is split behind its first line.** -/
theorem split_eq_cons {bytes : List UInt8} (h : bytes ≠ []) :
    split bytes = first bytes :: split (rest bytes) :=
  splitFrom_eq_cons (.inr h)

theorem newline_suffix_first {bytes : List UInt8} (h : rest bytes ≠ []) :
    [newline] <:+ first bytes := by
  unfold rest at h
  cases hdrop : bytes.dropWhile (· ≠ newline) with
  | nil => exact absurd (by rw [hdrop, List.drop_nil]) h
  | cons byte more =>
    have hbyte := List.head?_dropWhile_not (· ≠ newline) bytes
    rw [hdrop] at hbyte
    obtain rfl : byte = newline := by simpa using hbyte
    rw [first, hdrop]
    exact List.suffix_append ..

theorem length_rest_lt {bytes : List UInt8} (h : bytes ≠ []) :
    (rest bytes).length < bytes.length := by
  have hle := (List.dropWhile_suffix (· ≠ newline) (l := bytes)).length_le
  have hpos := List.length_pos_iff.2 h
  rw [rest, List.length_drop]
  omega

theorem line_induction {p : List UInt8 → Prop} (nil : p [])
    (line : ∀ bytes, bytes ≠ [] → p (rest bytes) → p bytes) (bytes : List UInt8) : p bytes :=
  if h : bytes = [] then h ▸ nil
  else line bytes h (line_induction nil line (rest bytes))
termination_by bytes.length
decreasing_by exact length_rest_lt h

theorem first_append_rest (bytes : List UInt8) : first bytes ++ rest bytes = bytes := by
  rw [first, rest, List.append_assoc, List.take_append_drop, List.takeWhile_append_dropWhile]

/-! ## The lines of a text -/

theorem utf8EncodeChar_newline : String.utf8EncodeChar '\n' = [newline] := rfl

theorem ne_ofNat {n : Nat} (h : n % 256 ≠ 10) : newline ≠ UInt8.ofNat n := by
  intro heq
  have htoNat := congrArg UInt8.toNat heq
  rw [UInt8.toNat_ofNat'] at htoNat
  exact h htoNat.symm

theorem not_mem_utf8EncodeChar {c : Char} (h : c ≠ '\n') : newline ∉ String.utf8EncodeChar c := by
  have hne : c.val.toNat ≠ 10 := fun heq => h (Char.ext (UInt32.toNat_inj.1 heq))
  unfold String.utf8EncodeChar
  extract_lets v
  change v ≠ 10 at hne
  split_ifs with h₁ h₂ h₃ <;> simp only [List.mem_cons, List.not_mem_nil, or_false, not_or]
  · exact ne_ofNat (by omega)
  · exact ⟨ne_ofNat (by omega), ne_ofNat (by omega)⟩
  · exact ⟨ne_ofNat (by omega), ne_ofNat (by omega), ne_ofNat (by omega)⟩
  · exact ⟨ne_ofNat (by omega), ne_ofNat (by omega), ne_ofNat (by omega), ne_ofNat (by omega)⟩

theorem splitFrom_of_not_mem {bytes : List UInt8} (h : newline ∉ bytes) (begun more : List UInt8) :
    splitFrom begun (bytes ++ more) = splitFrom (bytes.reverse ++ begun) more := by
  induction bytes generalizing begun with
  | nil => rfl
  | cons byte bytes ih =>
    rw [List.mem_cons, not_or] at h
    rw [List.cons_append, splitFrom, if_neg (Ne.symm h.1), ih h.2, List.reverse_cons,
      List.append_assoc]
    rfl

theorem exists_splitFrom (begun cs : List Char) :
    ∃ lines : List String, splitFrom (begun.flatMap String.utf8EncodeChar).reverse
      (cs.flatMap String.utf8EncodeChar) = lines.map encode := by
  induction cs generalizing begun with
  | nil =>
    cases begun with
    | nil => exact ⟨[], rfl⟩
    | cons c begun =>
      refine ⟨[String.ofList (c :: begun)], ?_⟩
      rw [List.map_singleton, encode_ofList, List.flatMap_nil, splitFrom,
        List.reverse_reverse, if_neg]
      simp
  | cons c cs ih =>
    by_cases h : c = '\n'
    · obtain ⟨lines, hlines⟩ := ih []
      refine ⟨String.ofList (begun ++ [c]) :: lines, ?_⟩
      rw [List.map_cons, ← hlines, encode_ofList, h, List.flatMap_cons, utf8EncodeChar_newline]
      simp [splitFrom, utf8EncodeChar_newline]
    · obtain ⟨lines, hlines⟩ := ih (begun ++ [c])
      refine ⟨lines, ?_⟩
      rw [← hlines, List.flatMap_cons, splitFrom_of_not_mem (not_mem_utf8EncodeChar h)]
      simp

/-- **The lines of a text are texts.** -/
theorem exists_split_encode (text : String) :
    ∃ lines : List String, split (encode text) = lines.map encode := by
  rw [← String.ofList_toList (s := text), encode_ofList]
  exact exists_splitFrom [] text.toList

theorem Complete.append {bytes more : List UInt8} (h : [newline] <:+ bytes)
    (hmore : Complete more) : Complete (bytes ++ more) := by
  obtain rfl | hmore := hmore
  · rw [List.append_nil]
    exact .inr h
  · exact .inr (hmore.trans (List.suffix_append ..))

/-- **The lines of a stream are texts**, or there is a first one that is none. -/
theorem split_cases (bytes : List UInt8) : (∃ lines : List String, split bytes = lines.map encode) ∨
    ∃ text more, bytes = encode text ++ more ∧ Complete (encode text) ∧ more ≠ [] ∧
      decode? (first more) = none := by
  induction bytes using line_induction with
  | nil => exact .inl ⟨[], rfl⟩
  | line bytes hne ih =>
    cases hfirst : decode? (first bytes) with
    | none => exact .inr ⟨"", bytes, rfl, .inl rfl, hne, hfirst⟩
    | some text =>
      rw [decode?_eq_some_iff] at hfirst
      obtain ⟨lines, hlines⟩ | ⟨before, more, hrest, hcomplete, hmore, hnone⟩ := ih
      · exact .inl ⟨text :: lines, by rw [split_eq_cons hne, hfirst, hlines, List.map_cons]⟩
      · have hsuffix : [newline] <:+ first bytes := by
          refine newline_suffix_first fun hnil => ?_
          rw [hnil] at hrest
          exact hmore (List.append_eq_nil_iff.1 hrest.symm).2
        refine .inr ⟨text ++ before, more, ?_, ?_, hmore, hnone⟩
        · rw [encode_append, ← hfirst, List.append_assoc, ← hrest, first_append_rest]
        · rw [encode_append, ← hfirst]
          exact Complete.append hsuffix hcomplete

end Formula.Lines
