import Formula.Expr.Assembly

/-!
# The grammar of formulas

A formula is a sum of products of powers of factors, where each of the first three may have one
operand only. A factor is a number, a name, a formula in parentheses, or a factor behind a unary
operator.

* `Sketch`: a tree whose numbers are still texts; `Sketch.expr?` reads them.
* `Layer`, `BinaryOp.layer`: the layers of the grammar, and the operators that join the parts of
  each.
* **`Derives`**: the tokens of a layer, and the tree that they stand for.
* `Token.endsOperand`, `Token.startsOperand`: the tokens at the two ends of an operand.
* `derives_iff_chain`: in the three outer layers this is a repetition, grouped from the left.
-/

namespace Formula

/-! ## Trees of texts -/

/-- A tree whose numbers are still texts. -/
inductive Sketch where
  | number (text : String)
  | var (name : String)
  | unary (op : UnaryOp) (operand : Sketch)
  | binary (op : BinaryOp) (first second : Sketch)

namespace Sketch

def height : Sketch → Nat
  | number _ | var _ => 1
  | unary _ operand => operand.height + 1
  | binary _ first second => max first.height second.height + 1

/-- The texts of the numbers, from left to right. -/
def texts : Sketch → List String
  | number text => [text]
  | var _ => []
  | unary _ operand => operand.texts
  | binary _ first second => first.texts ++ second.texts

/-- The tree with its numbers read, if they are all finite. -/
def expr? : Sketch → Option Expr
  | number text => (Numeral.readFinite? text).map .const
  | var name => some (.var name)
  | unary op operand => operand.expr?.map (.unary op)
  | binary op first second => do
    let a ← first.expr?
    let b ← second.expr?
    return .binary op a b

/-- The tokens of the tree with every operator behind its operands. -/
def postorder : Sketch → List Token
  | number text => [.number text]
  | var name => [.identifier name]
  | unary op operand => operand.postorder ++ [.operator (.unary op)]
  | binary op first second => first.postorder ++ second.postorder ++ [.operator (.binary op)]

section

variable {text : String} {op : UnaryOp} {join : BinaryOp} {operand first second : Sketch} {t : Expr}

theorem expr?_number_eq_some_iff :
    (number text).expr? = some t ↔ ∃ x, Numeral.readFinite? text = some x ∧ .const x = t :=
  Option.map_eq_some_iff

theorem expr?_unary_eq_some_iff :
    (unary op operand).expr? = some t ↔ ∃ a, operand.expr? = some a ∧ .unary op a = t :=
  Option.map_eq_some_iff

theorem expr?_binary_eq_some_iff : (binary join first second).expr? = some t ↔
    ∃ a b, first.expr? = some a ∧ second.expr? = some b ∧ .binary join a b = t := by
  simp [expr?, Option.bind_eq_some_iff]

end

theorem height_of_expr? {e : Sketch} {t : Expr} (h : e.expr? = some t) : t.height = e.height := by
  induction e generalizing t with
  | number text =>
    obtain ⟨x, -, rfl⟩ := expr?_number_eq_some_iff.1 h
    rfl
  | var name =>
    cases h
    rfl
  | unary op operand ih =>
    obtain ⟨a, ha, rfl⟩ := expr?_unary_eq_some_iff.1 h
    simp only [Expr.height, height, ih ha]
  | binary op first second ih₁ ih₂ =>
    obtain ⟨a, b, ha, hb, rfl⟩ := expr?_binary_eq_some_iff.1 h
    simp only [Expr.height, height, ih₁ ha, ih₂ hb]

theorem expr?_eq_none_iff {e : Sketch} :
    e.expr? = none ↔ ∃ text ∈ e.texts, Numeral.readFinite? text = none := by
  induction e with
  | number text => simp [expr?, texts]
  | var name => simp [expr?, texts]
  | unary op operand ih => simpa [expr?, texts] using ih
  | binary op first second ih₁ ih₂ =>
    simp only [texts, List.mem_append, or_and_right, exists_or, ← ih₁, ← ih₂]
    cases h₁ : first.expr? <;> cases h₂ : second.expr? <;> simp [expr?, h₁, h₂]

end Sketch

/-! ## Layers -/

/-- The layers of the grammar, from the one that binds least. -/
inductive Layer where
  | sum
  | product
  | power
  | factor
  deriving DecidableEq

/-- The next layer that binds tighter. -/
def Layer.tighter : Layer → Layer
  | sum => product
  | product => power
  | power | factor => factor

/-- The layer whose parts the operator joins. -/
def BinaryOp.layer : BinaryOp → Layer
  | add | subtract => .sum
  | multiply | divide => .product
  | power | logarithm => .power

/-- **The tokens of a layer**, and the tree that they stand for, which has no parentheses. -/
inductive Derives : Layer → List Token → Sketch → Prop where
  | number (text : String) : Derives .factor [.number text] (.number text)
  | identifier (name : String) : Derives .factor [.identifier name] (.var name)
  | parens {ts : List Token} {e : Sketch} (h : Derives .sum ts e) :
    Derives .factor (.openParen :: (ts ++ [.closeParen])) e
  | unary (op : UnaryOp) {ts : List Token} {e : Sketch} (h : Derives .factor ts e) :
    Derives .factor (.operator (.unary op) :: ts) (.unary op e)
  /-- A layer may have one part only. -/
  | single {layer : Layer} {ts : List Token} {e : Sketch} (h : Derives layer.tighter ts e) :
    Derives layer ts e
  /-- One more part is joined to all those on its left. -/
  | chain (op : BinaryOp) {layer : Layer} (hop : op.layer = layer) {ts us : List Token}
    {e f : Sketch} (h : Derives layer ts e) (h' : Derives layer.tighter us f) :
    Derives layer (ts ++ .operator (.binary op) :: us) (.binary op e f)

namespace Derives

theorem of_factor {ts : List Token} {e : Sketch} (h : Derives .factor ts e) (layer : Layer) :
    Derives layer ts e := by
  have hpower : Derives .power ts e := single h
  have hproduct : Derives .product ts e := single hpower
  cases layer with
  | sum => exact single hproduct
  | product => exact hproduct
  | power => exact hpower
  | factor => exact h

theorem formula {layer : Layer} {ts : List Token} {e : Sketch} (h : Derives layer ts e) :
    Derives .sum ts e := by
  cases layer with
  | sum => exact h
  | product => exact single h
  | power => exact single (single h)
  | factor => exact h.of_factor .sum

end Derives

/-! ## Ends of operands -/

namespace Token

/-- An operand may end with the token. -/
def endsOperand : Token → Bool
  | number _ | identifier _ | closeParen => true
  | operator _ | openParen => false

end Token

theorem Derives.exists_last {layer : Layer} {ts : List Token} {e : Sketch}
    (h : Derives layer ts e) : ∃ init last, ts = init ++ [last] ∧ last.endsOperand = true := by
  induction h with
  | number text => exact ⟨[], _, rfl, rfl⟩
  | identifier name => exact ⟨[], _, rfl, rfl⟩
  | @parens ts => exact ⟨.openParen :: ts, _, rfl, rfl⟩
  | unary op _ ih =>
    obtain ⟨init, last, rfl, hlast⟩ := ih
    exact ⟨.operator (.unary op) :: init, last, rfl, hlast⟩
  | single _ ih => exact ih
  | @chain op layer _ ts _ _ _ _ _ _ ih =>
    obtain ⟨init, last, rfl, hlast⟩ := ih
    exact ⟨ts ++ .operator (.binary op) :: init, last, by simp, hlast⟩

/-! ## Repetition -/

/-- A further part of a layer: the operator before it, its tokens and its tree. -/
structure Part where
  op : BinaryOp
  tokens : List Token
  tree : Sketch

/-- The tokens of the part, with the operator in front. -/
def Part.spelled (part : Part) : List Token :=
  .operator (.binary part.op) :: part.tokens

def Part.Fits (layer : Layer) (part : Part) : Prop :=
  part.op.layer = layer ∧ Derives layer.tighter part.tokens part.tree

/-- **An outer layer is a repetition of parts, grouped from the left.** -/
theorem derives_iff_chain {layer : Layer} (hl : layer ≠ .factor) {ts : List Token} {e : Sketch} :
    Derives layer ts e ↔ ∃ us f, Derives layer.tighter us f ∧ ∃ parts : List Part,
      (∀ part ∈ parts, part.Fits layer) ∧ ts = us ++ parts.flatMap Part.spelled ∧
        e = parts.foldl (fun e part => .binary part.op e part.tree) f := by
  constructor
  · intro h
    induction h with
    | number | identifier | parens | unary => exact absurd rfl hl
    | single h => exact ⟨_, _, h, [], by simp, by simp, rfl⟩
    | @chain op _ hop _ vs _ g _ h' ih _ =>
      obtain ⟨us, f, hf, parts, hparts, rfl, rfl⟩ := ih hl
      refine ⟨us, f, hf, parts ++ [⟨op, vs, g⟩], ?_, ?_, ?_⟩
      · intro part hpart
        rcases List.mem_append.1 hpart with hpart | hpart
        · exact hparts part hpart
        · rw [List.mem_singleton.1 hpart]
          exact ⟨hop, h'⟩
      · simp [Part.spelled]
      · simp
  · rintro ⟨us, f, hf, parts, hparts, rfl, rfl⟩
    have hfirst : Derives layer us f := .single hf
    clear hf
    induction parts generalizing us f with
    | nil => simpa using hfirst
    | cons part parts ih =>
      obtain ⟨hop, hpart⟩ := hparts part (List.mem_cons_self ..)
      have := ih _ _ (fun p hp => hparts p (List.mem_cons_of_mem _ hp))
        (.chain part.op hop hfirst hpart)
      simpa [Part.spelled] using this

end Formula
