import Formula.Proofs.Assembling
import Formula.Proofs.Normal

/-!
# Listing a tree

A tree is listed in postorder, with every operator behind its operands and every constant as some
text that reads as it. Assembling undoes this.

* `Listing`: the tokens list the tree; `Expr.listing`: the list with a given text for each constant.
* `listing_iff_sketch`: a listing is the postorder of a tree of texts.
* `Expr.gather`, **`Listing.unique`**: tokens list one tree only, however high.
* **`ofPostfix_listing`**: tokens are assembled into a tree if they list it and it is not too high.
-/

namespace Formula

/-- **The tokens list the tree in postorder**, its first operand before the second. The text of a
constant may be any that reads as it. -/
inductive Listing : Expr → List Token → Prop where
  | const {text : String} {x : Float} (hread : Numeral.read? text = some x)
    (hfinite : x.isFinite = true) : Listing (.const x) [.number text]
  | var (name : String) : Listing (.var name) [.identifier name]
  | unary (op : UnaryOp) {operand : Expr} {ts : List Token} (h : Listing operand ts) :
    Listing (.unary op operand) (ts ++ [.operator (.unary op)])
  | binary (op : BinaryOp) {first second : Expr} {ts us : List Token} (h : Listing first ts)
    (h' : Listing second us) :
    Listing (.binary op first second) (ts ++ us ++ [.operator (.binary op)])

namespace Expr

/-- The tokens that list the tree, with a given text for each constant. -/
def listing (spell : Float → String) : Expr → List Token
  | const x => [.number (spell x)]
  | var name => [.identifier name]
  | unary op operand => operand.listing spell ++ [.operator (.unary op)]
  | binary op first second =>
    first.listing spell ++ second.listing spell ++ [.operator (.binary op)]

/-- The text reads as the constant, which is finite. -/
def SpelledBy (spell : Float → String) (x : Float) : Prop :=
  Numeral.read? (spell x) = some x ∧ x.isFinite = true

end Expr

theorem listing_listing {spell : Float → String} {t : Expr}
    (h : t.All (Expr.SpelledBy spell) fun _ => True) : Listing t (t.listing spell) := by
  induction t with
  | const x => exact .const h.1 h.2
  | var name => exact .var name
  | unary op operand ih => exact .unary op (ih h)
  | binary op first second ih₁ ih₂ => exact .binary op (ih₁ h.1) (ih₂ h.2)

/-! ## Trees of texts -/

/-- A listing is the postorder of a tree of texts, whose numbers are read as the constants. -/
theorem listing_iff_sketch {t : Expr} {ts : List Token} :
    Listing t ts ↔ ∃ e : Sketch, ts = e.postorder ∧ e.expr? = some t := by
  constructor
  · intro h
    induction h with
    | @const text x hread hfinite =>
      have hx := Numeral.readFinite?_eq_some_iff.2 ⟨hread, hfinite⟩
      exact ⟨.number text, rfl, Sketch.expr?_number_eq_some_iff.2 ⟨x, hx, rfl⟩⟩
    | var name => exact ⟨.var name, rfl, rfl⟩
    | unary op _ ih =>
      obtain ⟨e, rfl, he⟩ := ih
      exact ⟨.unary op e, rfl, Sketch.expr?_unary_eq_some_iff.2 ⟨_, he, rfl⟩⟩
    | binary op _ _ ih ih' =>
      obtain ⟨e, rfl, he⟩ := ih
      obtain ⟨f, rfl, hf⟩ := ih'
      exact ⟨.binary op e f, rfl, Sketch.expr?_binary_eq_some_iff.2 ⟨_, _, he, hf, rfl⟩⟩
  · rintro ⟨e, rfl, h⟩
    induction e generalizing t with
    | number text =>
      obtain ⟨x, hx, rfl⟩ := Sketch.expr?_number_eq_some_iff.1 h
      obtain ⟨hread, hfinite⟩ := Numeral.readFinite?_eq_some_iff.1 hx
      exact .const hread hfinite
    | var name =>
      cases h
      exact .var name
    | unary op operand ih =>
      obtain ⟨a, ha, rfl⟩ := Sketch.expr?_unary_eq_some_iff.1 h
      exact .unary op (ih ha)
    | binary op first second ih₁ ih₂ =>
      obtain ⟨a, b, ha, hb, rfl⟩ := Sketch.expr?_binary_eq_some_iff.1 h
      exact .binary op (ih₁ ha) (ih₂ hb)

theorem ofPostfix_eq_ok_iff_listing {ts : List Token} {t : Expr} :
    Expr.ofPostfix ts = .ok t ↔ t.height ≤ maxHeight ∧ Listing t ts := by
  rw [ofPostfix_eq_ok_iff, listing_iff_sketch]
  constructor
  · rintro ⟨e, hts, hexpr, hle⟩
    exact ⟨hle, e, hts, hexpr⟩
  · rintro ⟨hle, e, hts, hexpr⟩
    exact ⟨e, hts, hexpr, hle⟩

/-! ## One tree only -/

/-- One more token is gathered on a stack of trees of any height. Nothing fails here: a token that
finds no operands is left out. -/
def Expr.gather (stack : List Expr) (t : Token) : List Expr :=
  match t, stack with
  | .number text, stack => ((Numeral.read? text).map Expr.const).toList ++ stack
  | .identifier name, stack => .var name :: stack
  | .operator (.unary op), a :: below => .unary op a :: below
  | .operator (.binary op), b :: a :: below => .binary op a b :: below
  | _, stack => stack

theorem Listing.foldl_gather {t : Expr} {ts : List Token} (h : Listing t ts) (stack : List Expr) :
    ts.foldl Expr.gather stack = t :: stack := by
  induction h generalizing stack with
  | const hread _ =>
    rw [List.foldl_cons, Expr.gather, hread]
    rfl
  | var name => rfl
  | unary op _ ih =>
    rw [List.foldl_append, ih]
    rfl
  | binary op _ _ ih ih' =>
    rw [List.foldl_append, List.foldl_append, ih, ih']
    rfl

/-- **Tokens list one tree only.** -/
theorem Listing.unique {t u : Expr} {ts : List Token} (h : Listing t ts) (h' : Listing u ts) :
    t = u :=
  (List.cons.inj ((h.foldl_gather []).symm.trans (h'.foldl_gather []))).1

/-- **Tokens are assembled into a tree exactly if they list it and it is not too high.** No more
than one tree fits them, and it is assembled again from any text for a constant. -/
theorem ofPostfix_listing :
    (∀ ts t, Expr.ofPostfix ts = .ok t ↔ t.height ≤ maxHeight ∧ Listing t ts) ∧
      (∀ ts t u, Listing t ts → Listing u ts → t = u) ∧
      ∀ spell t, t.height ≤ maxHeight → t.All (Expr.SpelledBy spell) (fun _ => True) →
        Expr.ofPostfix (t.listing spell) = .ok t := by
  refine ⟨fun ts t => ofPostfix_eq_ok_iff_listing, fun ts t u h h' => h.unique h',
    fun spell t hle hspelled => ?_⟩
  exact ofPostfix_eq_ok_iff_listing.2 ⟨hle, listing_listing hspelled⟩

theorem ofPostfix_listing_difference :
    Expr.ofPostfix [.number "1e1", .identifier "x", .operator (.unary .squareRoot),
        .operator (.binary .subtract)] =
        .ok (.binary .subtract (.const 10) (.unary .squareRoot (.var "x"))) ∧
      (∀ u, Listing u [.number "1e1"] → .const 10 = u) ∧
      Expr.ofPostfix [.number "-0.5", .operator (.unary .sine)] =
        .ok (.unary .sine (.const (-0.5))) := by
  have hten : Numeral.read? "1e1" = some 10 := by decide +kernel
  have hlisting : Listing (.const 10) [.number "1e1"] := .const hten (by decide +kernel)
  obtain ⟨hassembled, hunique, hspelled⟩ := ofPostfix_listing
  refine ⟨(hassembled _ _).2
    ⟨by decide, .binary .subtract hlisting (.unary .squareRoot (.var "x"))⟩,
    fun u hu => hunique _ _ u hlisting hu, ?_⟩
  have hwrite : Numeral.write (-0.5) = "-0.5" := by decide +kernel
  have hspell : Expr.SpelledBy Numeral.write (-0.5) := by
    refine ⟨?_, by decide +kernel⟩
    rw [hwrite]
    decide +kernel
  have h := hspelled Numeral.write (.unary .sine (.const (-0.5))) (by decide) hspell
  rwa [Expr.listing, Expr.listing, hwrite] at h

end Formula
