import Formula.Proofs.Distinct
import Formula.Proofs.Precedence
import Formula.Proofs.Reordering

/-!
# The names of a formula

A tree needs a value for each name in it. It asks for them in the order in which the formula
mentions them first.

* `Expr.occurrences`: the names in a tree from left to right, as often as they occur.
* `Expr.names_eq`: each of them once, at its first place.
* `Expr.collectNames_eq_append`: what a tree adds to the names collected before it.
* `Expr.leaves`, `Expr.filterMap_leaves`: the leaves of a tree, and the names at them.
* **`names_of_leaves`**: the names of a tree are those at its leaves, and join those of its
  operands.
* `Expr.eval_eq_unboundName`: only a name in the tree without a value can be reported as such.
* **`names_of_read`**: a formula that is read needs the names that are among its tokens.
-/

namespace Formula

namespace Expr

/-! ## Names in a tree -/

/-- The names of the variables in the tree from left to right, as often as they occur. -/
def occurrences : Expr → List String
  | const _ => []
  | var name => [name]
  | unary _ operand => operand.occurrences
  | binary _ first second => first.occurrences ++ second.occurrences

theorem collectNames_eq (e : Expr) (names : List String) :
    e.collectNames names = names ++ (e.occurrences.filter (· ∉ names)).eraseDups := by
  induction e generalizing names with
  | const x => simp [collectNames, occurrences]
  | var name =>
    by_cases h : name ∈ names
    · simp [collectNames, occurrences, h]
    · simp [collectNames, occurrences, h, eraseDups_cons_eq]
  | unary op operand ih => exact ih names
  | binary op first second ih₁ ih₂ =>
    rw [collectNames, ih₁, ih₂, occurrences, List.filter_append, eraseDups_append_eq,
      List.append_assoc, List.filter_filter]
    congr 3
    refine List.filter_congr fun name _ => ?_
    by_cases h : name ∈ names <;> simp [h]

theorem names_eq (e : Expr) : e.names = e.occurrences.eraseDups := by
  rw [names, collectNames_eq, List.nil_append]
  congr 1
  exact List.filter_eq_self.2 fun name _ => by simp

theorem nodup_names (e : Expr) : e.names.Nodup := by
  rw [names_eq]
  exact nodup_eraseDups _

theorem mem_names {e : Expr} {name : String} : name ∈ e.names ↔ name ∈ e.occurrences := by
  rw [names_eq, List.mem_eraseDups]

/-- **A tree adds those of its names that have not been collected before it.** -/
theorem collectNames_eq_append (e : Expr) (names : List String) :
    e.collectNames names = names ++ e.names.filter (· ∉ names) := by
  rw [collectNames_eq, names_eq, eraseDups_filter]

/-! ## Names at the leaves -/

/-- The leaves of the tree from left to right. -/
def leaves : Expr → List Expr
  | const x => [const x]
  | var name => [var name]
  | unary _ operand => operand.leaves
  | binary _ first second => first.leaves ++ second.leaves

/-- The name of the variable, if the tree is one. -/
def name? : Expr → Option String
  | var name => some name
  | const _ | unary _ _ | binary _ _ _ => none

theorem name?_eq_some_iff {e : Expr} {name : String} : e.name? = some name ↔ e = var name := by
  cases e <;> simp [name?]

theorem filterMap_leaves (e : Expr) : e.leaves.filterMap name? = e.occurrences := by
  induction e with
  | const x => rfl
  | var name => rfl
  | unary op operand ih => exact ih
  | binary op first second ih₁ ih₂ => rw [leaves, List.filterMap_append, ih₁, ih₂, occurrences]

theorem var_mem_leaves {e : Expr} {name : String} : var name ∈ e.leaves ↔ name ∈ e.names := by
  rw [mem_names, ← filterMap_leaves, List.mem_filterMap]
  simp only [name?_eq_some_iff, exists_eq_right]

end Expr

/-- **The names of a tree are those at its leaves**, from left to right, each once. A binary
operation has those of its first operand, and behind them what its second one adds. -/
theorem names_of_leaves :
    (∀ e : Expr, e.names = (e.leaves.filterMap Expr.name?).eraseDups ∧ e.names.Nodup ∧
      ∀ name, name ∈ e.names ↔ .var name ∈ e.leaves) ∧
      (∀ op operand, (Expr.unary op operand).names = operand.names) ∧
      ∀ op first second, (Expr.binary op first second).names =
        first.names ++ second.names.filter (· ∉ first.names) := by
  refine ⟨fun e => ⟨?_, e.nodup_names, fun name => Expr.var_mem_leaves.symm⟩, fun op operand => rfl,
    fun op first second => ?_⟩
  · rw [Expr.filterMap_leaves, Expr.names_eq]
  · rw [Expr.names, Expr.collectNames]
    exact Expr.collectNames_eq_append second first.names

/-! ## Names without a value -/

theorem UnaryOp.apply_ne_unboundName (op : UnaryOp) (x : Float) (name : String) :
    op.apply x ≠ .error (.unboundName name) := by
  cases op with
  | negate | sine | cosine | tangent => simp [UnaryOp.apply]
  | squareRoot =>
    rw [UnaryOp.apply]
    split <;> simp

theorem BinaryOp.apply_ne_unboundName (op : BinaryOp) (x y : Float) (name : String) :
    op.apply x y ≠ .error (.unboundName name) := by
  cases op with
  | add | subtract | multiply | power => simp [BinaryOp.apply]
  | divide | logarithm =>
    rw [BinaryOp.apply]
    split <;> simp

/-- **Only a name in the tree is reported as one without a value**, and then it has none. -/
theorem Expr.eval_eq_unboundName {e : Expr} {values : Values} {name : String}
    (h : e.eval values = .error (.unboundName name)) : name ∈ e.names ∧ values name = none := by
  rw [mem_names]
  induction e with
  | const x => cases h
  | var other =>
    rw [eval] at h
    split at h
    · cases h
    · next hnone =>
      cases h
      exact ⟨List.mem_singleton_self _, hnone⟩
  | unary op operand ih =>
    rcases bind_eq_error_iff.1 h with h | ⟨x, -, h⟩
    · exact ih h
    · exact absurd h (op.apply_ne_unboundName x name)
  | binary op first second ih₁ ih₂ =>
    rcases bind_eq_error_iff.1 h with h | ⟨x, -, h⟩
    · obtain ⟨hmem, hnone⟩ := ih₁ h
      exact ⟨List.mem_append_left _ hmem, hnone⟩
    rcases bind_eq_error_iff.1 h with h | ⟨y, -, h⟩
    · obtain ⟨hmem, hnone⟩ := ih₂ h
      exact ⟨List.mem_append_right _ hmem, hnone⟩
    · exact absurd h (op.apply_ne_unboundName x y name)

/-! ## Names among tokens -/

/-- The name that the token is, if it is one. -/
def Token.name? : Token → Option String
  | identifier name => some name
  | operator _ | openParen | closeParen | number _ => none

theorem filterMap_name?_operands (ts : List Token) :
    (operands ts).filterMap Token.name? = ts.filterMap Token.name? := by
  rw [operands, List.filterMap_filter]
  refine List.filterMap_congr fun t _ => ?_
  cases t <;> rfl

theorem filterMap_name?_postorder {e : Sketch} {t : Expr} (h : e.expr? = some t) :
    e.postorder.filterMap Token.name? = t.occurrences := by
  induction e generalizing t with
  | number text =>
    obtain ⟨x, -, rfl⟩ := Sketch.expr?_number_eq_some_iff.1 h
    rfl
  | var name =>
    cases h
    rfl
  | unary op operand ih =>
    obtain ⟨a, ha, rfl⟩ := Sketch.expr?_unary_eq_some_iff.1 h
    rw [Sketch.postorder, List.filterMap_append, ih ha]
    exact List.append_nil _
  | binary op first second ih₁ ih₂ =>
    obtain ⟨a, b, ha, hb, rfl⟩ := Sketch.expr?_binary_eq_some_iff.1 h
    rw [Sketch.postorder, List.filterMap_append, List.filterMap_append, ih₁ ha, ih₂ hb]
    exact List.append_nil _

/-- **A formula that is read needs a value for each name among its tokens**, in the order in which
the tokens mention them first. -/
theorem names_of_read {text : String} {t : Expr} (h : Expr.read text = .ok t) :
    ∃ tokens, Token.scan text = .ok tokens ∧
      t.names = (tokens.filterMap Token.name?).eraseDups := by
  obtain ⟨tokens, ordered, hscan, hordered, hassembled⟩ := read_eq_ok_iff.1 h
  obtain ⟨e, rfl, hexpr, -⟩ := ofPostfix_eq_ok_iff.1 hassembled
  refine ⟨tokens, hscan, ?_⟩
  rw [Expr.names_eq, ← filterMap_name?_postorder hexpr, ← filterMap_name?_operands,
    operands_of_toPostfix hordered, filterMap_name?_operands]

theorem names_of_read_power : ∃ t, Expr.read "b - a^b" = .ok t ∧ t.names = ["b", "a"] := by
  have hread : Expr.read "b - a^b" =
      .ok (.binary .subtract (.var "b") (.binary .power (.var "a") (.var "b"))) := by decide +kernel
  have htokens : Token.scan "b - a^b" = .ok [.identifier "b", .operator (.binary .subtract),
      .identifier "a", .operator (.binary .power), .identifier "b"] := by decide +kernel
  obtain ⟨tokens, hscan, hnames⟩ := names_of_read hread
  obtain rfl := Except.ok.inj (htokens.symm.trans hscan)
  exact ⟨_, hread, hnames⟩

end Formula
