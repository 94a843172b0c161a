import Formula.Proofs.Parentheses

/-!
# A group in place of a name

Tokens in parentheses go through the yard like one operand, whatever stands around them.

* `Yard.after`: the yard when other tokens have left before; `Yard.step_after`, `Yard.run_after`.
* `Yard.Passes`: tokens that leave alone what waits, like an operand; `passes_enclosed`.
* `exists_context`: such tokens stand between the same others in postfix order, whatever they are.
* `count_of_toPostfix`: a name is in postfix order as often as in the text.
* **`toPostfix_substitute`**: a name that stands once may be replaced by tokens in parentheses.
-/

namespace Formula

namespace Yard

/-! ## What has left before -/

/-- The yard when `earlier` has left before, with the last one first. -/
def after (yard : Yard Token) (earlier : List Token) : Yard Token :=
  { yard with output := yard.output ++ earlier }

/-- **One token does the same whatever has left before**, and fails the same. -/
theorem step_after (yard : Yard Token) (earlier : List Token) (t : Token) :
    step id (yard.after earlier) t = (step id yard t).map (·.after earlier) := by
  cases t with
  | number | identifier | openParen => rfl
  | operator op =>
    have hput : putOperator id (yard.after earlier) op (.operator op) =
        (putOperator id yard op (.operator op)).after earlier := by
      simp only [putOperator, after, List.append_assoc]
    exact congrArg Except.ok hput
  | closeParen =>
    simp only [step, id, close, after]
    split
    · rfl
    · simp only [Except.map, List.append_assoc]

theorem run_after (yard : Yard Token) (earlier ts : List Token) :
    ts.foldlM (step id) (yard.after earlier) =
      (ts.foldlM (step id) yard).map (·.after earlier) := by
  have hrun := foldlM_map_of_step (g := id) (fun yard t => step_after yard earlier t) ts yard
  rwa [List.map_id] at hrun

theorem finish_after (yard : Yard Token) (earlier : List Token) :
    (yard.after earlier).finish id = (yard.finish id).map (earlier.reverse ++ ·) := by
  cases hopen : yard.waiting.any (id · == .openParen) with
  | true => simp only [finish, after, hopen, if_true, Except.map]
  | false =>
    simp only [finish, after, hopen, Bool.false_eq_true, if_false, Except.map, List.reverse_append,
      List.append_assoc]

theorem run_finish_after (earlier waiting ts : List Token) :
    ts.foldlM (step id) ⟨earlier, waiting⟩ >>= finish id =
      (ts.foldlM (step id) ⟨[], waiting⟩ >>= finish id).map (earlier.reverse ++ ·) := by
  have hstart : (⟨earlier, waiting⟩ : Yard Token) = after ⟨[], waiting⟩ earlier := rfl
  rw [hstart, run_after]
  cases ts.foldlM (step id) ⟨[], waiting⟩ with
  | error e => rfl
  | ok yard => exact finish_after yard earlier

/-! ## Like one operand -/

/-- The tokens let `out` leave, and leave alone what has left and what waits. -/
def Passes (ts out : List Token) : Prop :=
  ∀ output waiting, ts.foldlM (step id) ⟨output, waiting⟩ = .ok ⟨out.reverse ++ output, waiting⟩

theorem passes_identifier (name : String) : Passes [.identifier name] [.identifier name] :=
  fun _ _ => rfl

theorem passes_enclosed {ts out : List Token} (h : Token.toPostfix ts = .ok out) :
    Passes (enclosed ts) out :=
  fun _ _ => run_enclosed h

end Yard

/-- **What passes like an operand does not matter to the tokens around it.** They fail, or come
before and behind it in postfix order, the same for all that may stand there. -/
theorem exists_context (before behind : List Token) :
    ∃ context : Except ParenError (List Token × List Token), ∀ ts out, Yard.Passes ts out →
      Token.toPostfix (before ++ ts ++ behind) =
        context.map fun sides => sides.1 ++ out ++ sides.2 := by
  simp only [Token.toPostfix, Yard.order, List.foldlM_append]
  cases before.foldlM (Yard.step id) {} with
  | error e => exact ⟨.error e, fun ts out _ => rfl⟩
  | ok yard =>
    obtain ⟨output, waiting⟩ := yard
    refine ⟨(behind.foldlM (Yard.step id) ⟨[], waiting⟩ >>= Yard.finish id).map fun right =>
      (output.reverse, right), fun ts out hpass => ?_⟩
    rw [ok_bind, hpass output waiting, ok_bind, Yard.run_finish_after, List.reverse_append,
      List.reverse_reverse]
    cases behind.foldlM (Yard.step id) ⟨[], waiting⟩ >>= Yard.finish id <;> rfl

/-! ## A group for a name -/

theorem count_of_toPostfix {ts out : List Token} (h : Token.toPostfix ts = .ok out)
    (name : String) : out.count (.identifier name) = ts.count (.identifier name) :=
  count_eq_of_toPostfix h (by simp [Token.kind])

/-- **Tokens in parentheses stand for one operand.** A name that occurs once may be replaced by
them: their own postfix order takes its place, and parentheses that do not match still do not. -/
theorem toPostfix_substitute {before group behind inner : List Token} {name : String}
    (hgroup : Token.toPostfix group = .ok inner) (hbefore : .identifier name ∉ before)
    (hbehind : .identifier name ∉ behind) :
    (∀ out, Token.toPostfix (before ++ [.identifier name] ++ behind) = .ok out →
      ∃ left right, out = left ++ [.identifier name] ++ right ∧
        .identifier name ∉ left ∧ .identifier name ∉ right ∧
          Token.toPostfix (before ++ enclosed group ++ behind) = .ok (left ++ inner ++ right)) ∧
      ∀ e, Token.toPostfix (before ++ [.identifier name] ++ behind) = .error e →
        Token.toPostfix (before ++ enclosed group ++ behind) = .error e := by
  obtain ⟨context, hcontext⟩ := exists_context before behind
  have hnamed := hcontext _ _ (Yard.passes_identifier name)
  have hgrouped := hcontext _ _ (Yard.passes_enclosed hgroup)
  refine ⟨fun out hout => ?_, fun e he => ?_⟩
  · obtain ⟨⟨left, right⟩, hcontext, hsides⟩ := map_eq_ok_iff.1 (hnamed.symm.trans hout)
    have hcount := count_of_toPostfix hout name
    rw [← hsides] at hcount
    simp only [List.count_append, List.count_singleton_self, List.count_eq_zero.2 hbefore,
      List.count_eq_zero.2 hbehind] at hcount
    have hleft : left.count (.identifier name) = 0 := by omega
    have hright : right.count (.identifier name) = 0 := by omega
    refine ⟨left, right, hsides.symm, List.count_eq_zero.1 hleft, List.count_eq_zero.1 hright, ?_⟩
    rw [hgrouped, hcontext]
    rfl
  · cases context with
    | ok sides => cases hnamed.symm.trans he
    | error e' =>
      cases hnamed.symm.trans he
      exact hgrouped

/-- Nothing leaves through an open parenthesis, though the product binds tighter than the sum. -/
theorem toPostfix_substitute_product :
    Token.toPostfix [.number "2", .operator (.binary .multiply), .openParen, .identifier "x",
        .operator (.binary .add), .number "1", .closeParen] =
      .ok [.number "2", .identifier "x", .number "1", .operator (.binary .add),
        .operator (.binary .multiply)] := by
  have hgroup : Token.toPostfix [.identifier "x", .operator (.binary .add), .number "1"] =
      .ok [.identifier "x", .number "1", .operator (.binary .add)] := by decide
  have hbefore : Token.identifier "x" ∉ [.number "2", .operator (.binary .multiply)] := by decide
  have hbehind : Token.identifier "x" ∉ [] := by decide
  have hnamed :
      Token.toPostfix ([.number "2", .operator (.binary .multiply)] ++ [.identifier "x"] ++ []) =
        .ok [.number "2", .identifier "x", .operator (.binary .multiply)] := by decide
  obtain ⟨left, right, hout, hleft, -, hgrouped⟩ :=
    (toPostfix_substitute hgroup hbefore hbehind).1 _ hnamed
  obtain rfl : left = [.number "2"] := by
    match left with
    | [] => cases (List.cons.inj hout).1
    | [t] =>
      cases hout
      rfl
    | t :: u :: left =>
      obtain ⟨rfl, -⟩ := List.cons.inj (List.cons.inj hout).2
      exact absurd (.tail _ (.head _)) hleft
  cases hout
  exact hgrouped

end Formula
