/-
The variable, in what is read and in what is computed.

The reader notes the variable as it meets it, and evaluation needs it where it finds it in
the tree.  Both are the same question: the lexemes that are read are those of a derivation,
and the variable is a leaf of its tree exactly if it is one of its lexemes.  A tree without
the variable has a value that does not depend on it, and a tree with the variable has one
exactly if the variable has.  Nothing else keeps an evaluation from ending, so a calculation
fails in three ways after it has been read.
-/
import Reckoner.Expression.Calculation
import Reckoner.Proofs.Expression.Size

namespace Reckoner

namespace Expression

/-! ### The variable in a tree -/

mutual

/-- The trees that mention the variable are those in which it occurs. -/
theorem usesVariable_iff_occurs : ∀ e : Expression, e.usesVariable = true ↔ Occurs .unknown e
  | .number v => by
      refine iff_of_false (by simp [usesVariable]) ?_
      rintro ⟨⟩
  | .unknown => iff_of_true rfl .here
  | .neg a => by
      rw [usesVariable, usesVariable_iff_occurs a]
      refine ⟨.neg, ?_⟩
      rintro ⟨⟩
      assumption
  | .binary op a b => by
      rw [usesVariable, Bool.or_eq_true, usesVariable_iff_occurs a, usesVariable_iff_occurs b]
      constructor
      · rintro (h | h)
        · exact .left h
        · exact .right h
      · rintro (⟨⟩ | ⟨⟩ | h | h)
        · exact .inl h
        · exact .inr h
  | .call f args => by
      rw [usesVariable, anyUsesVariable_iff_occurs args]
      constructor
      · rintro ⟨a, ha, h⟩
        exact .arg ha h
      · rintro ⟨⟩
        exact ⟨_, ‹_›, ‹_›⟩

/-- It occurs in one of several trees. -/
theorem anyUsesVariable_iff_occurs : ∀ es : List Expression,
    anyUsesVariable es = true ↔ ∃ e ∈ es, Occurs .unknown e
  | [] => by simp [anyUsesVariable]
  | e :: rest => by
      rw [anyUsesVariable, Bool.or_eq_true, usesVariable_iff_occurs e,
        anyUsesVariable_iff_occurs rest]
      simp

end

/-! ### The variable in a derivation -/

mutual

/-- The variable is in the tree of a derivation if it is among its lexemes. -/
theorem Derivation.usesVariable_tree : ∀ {phrase : Phrase} (d : Derivation phrase),
    d.tree.usesVariable = mentionsVariable d.yield
  | _, .chain first links => by
      rw [Derivation.tree, Derivation.yield, mentionsVariable_append, links.usesVariable_join,
        first.usesVariable_tree]
  | _, .plus inner => by simp [Derivation.tree, Derivation.yield, inner.usesVariable_tree]
  | _, .minus inner => by
      simp [Derivation.tree, Derivation.yield, usesVariable, inner.usesVariable_tree]
  | _, .unsigned inner => inner.usesVariable_tree
  | _, .bare base => base.usesVariable_tree
  | _, .raised base exponent => by
      simp [Derivation.tree, Derivation.yield, usesVariable, base.usesVariable_tree,
        exponent.usesVariable_tree]
  | _, .number v => by simp [Derivation.tree, Derivation.yield, usesVariable]
  | _, .unknown => by simp [Derivation.tree, Derivation.yield, usesVariable]
  | _, .pi => by simp [Derivation.tree, Derivation.yield, usesVariable]
  | _, .e => by simp [Derivation.tree, Derivation.yield, usesVariable]
  | _, .call f fits args => by
      simp [Derivation.tree, Derivation.yield, usesVariable, args.anyUsesVariable_trees,
        f.name_ne.1]
  | _, .group inner => by simp [Derivation.tree, Derivation.yield, inner.usesVariable_tree]

/-- Links add their lexemes to those of what stands to their left. -/
theorem Links.usesVariable_join : ∀ {level : Level} (links : Links level) (lhs : Expression),
    (links.join lhs).usesVariable = (lhs.usesVariable || mentionsVariable links.yield)
  | _, .stop, lhs => by simp [Links.join, Links.yield]
  | _, .link joins operand links, lhs => by
      rw [Links.join, links.usesVariable_join, usesVariable, operand.usesVariable_tree]
      simp [Links.yield, joins.ne_word, Bool.or_assoc]

theorem Arguments.anyUsesVariable_trees : ∀ {count : Nat} (args : Arguments count),
    anyUsesVariable args.trees = mentionsVariable args.yield
  | _, .last arg => by
      simp [Arguments.trees, Arguments.yield, anyUsesVariable, arg.usesVariable_tree]
  | _, .more arg rest => by
      simp [Arguments.trees, Arguments.yield, anyUsesVariable, arg.usesVariable_tree,
        rest.anyUsesVariable_trees]

end

/-! ### Values -/

mutual

/-- With a value for the variable every tree has a value. -/
theorem exists_eval? (v : Double) : ∀ e : Expression, ∃ y, e.eval? (some v) = some y
  | .number w => ⟨w, rfl⟩
  | .unknown => ⟨v, rfl⟩
  | .neg a => by
      obtain ⟨y, hy⟩ := exists_eval? v a
      exact ⟨-y, by rw [eval?, hy]; rfl⟩
  | .binary op a b => by
      obtain ⟨y, hy⟩ := exists_eval? v a
      obtain ⟨z, hz⟩ := exists_eval? v b
      exact ⟨op.apply y z, by rw [eval?, hy, hz]; rfl⟩
  | .call f args => by
      obtain ⟨ys, hys⟩ := exists_evalAll? v args
      exact ⟨f.apply ys, by rw [eval?, hys]; rfl⟩

theorem exists_evalAll? (v : Double) : ∀ es : List Expression,
    ∃ ys, evalAll? (some v) es = some ys
  | [] => ⟨[], rfl⟩
  | e :: rest => by
      obtain ⟨y, hy⟩ := exists_eval? v e
      obtain ⟨ys, hys⟩ := exists_evalAll? v rest
      exact ⟨y :: ys, by rw [evalAll?, hy, hys]; rfl⟩

end

mutual

/-- The value of a tree without the variable is the same whatever the variable is. -/
theorem eval?_congr (x x' : Option Double) : ∀ e : Expression, e.usesVariable = false →
    e.eval? x = e.eval? x'
  | .number v, _ => rfl
  | .neg a, h => by rw [eval?, eval?, eval?_congr x x' a h]
  | .binary op a b, h => by
      obtain ⟨ha, hb⟩ := Bool.or_eq_false_iff.mp h
      rw [eval?, eval?, eval?_congr x x' a ha, eval?_congr x x' b hb]
  | .call f args, h => by rw [eval?, eval?, evalAll?_congr x x' args h]

theorem evalAll?_congr (x x' : Option Double) : ∀ es : List Expression,
    anyUsesVariable es = false → evalAll? x es = evalAll? x' es
  | [], _ => rfl
  | e :: rest, h => by
      obtain ⟨he, hrest⟩ := Bool.or_eq_false_iff.mp h
      rw [evalAll?, evalAll?, eval?_congr x x' e he, evalAll?_congr x x' rest hrest]

end

mutual

/-- Without a value for the variable no tree has one that mentions it. -/
theorem eval?_none_of_usesVariable : ∀ e : Expression, e.usesVariable = true →
    e.eval? none = none
  | .unknown, _ => rfl
  | .neg a, h => by rw [eval?, eval?_none_of_usesVariable a h]; rfl
  | .binary op a b, h => by
      rcases Bool.or_eq_true_iff.mp h with ha | hb
      · simp [eval?, eval?_none_of_usesVariable a ha]
      · simp [eval?, eval?_none_of_usesVariable b hb]
  | .call f args, h => by rw [eval?, evalAll?_none_of_usesVariable args h]; rfl

theorem evalAll?_none_of_usesVariable : ∀ es : List Expression, anyUsesVariable es = true →
    evalAll? none es = none
  | e :: rest, h => by
      rcases Bool.or_eq_true_iff.mp h with he | hrest
      · simp [evalAll?, eval?_none_of_usesVariable e he]
      · simp [evalAll?, evalAll?_none_of_usesVariable rest hrest]

end

/-- Evaluation fails for want of the variable, and for nothing else. -/
theorem eval?_none_eq_none_iff {e : Expression} : e.eval? none = none ↔ e.usesVariable = true := by
  refine ⟨fun h => ?_, eval?_none_of_usesVariable e⟩
  cases hvariable : e.usesVariable with
  | true => rfl
  | false =>
      obtain ⟨y, hy⟩ := exists_eval? .nan e
      rw [eval?_congr none (some .nan) e hvariable, hy] at h
      cases h

/-! ### What is read -/

/-- The tree that is read, the note on the variable aside. -/
theorem parse_eq_map_parsed (text : String) : parse text = (parsed text).map Parsed.root := by
  unfold parse parsed
  cases Token.ofText text <;> rfl

/-- The note that is kept while reading is right about the tree and about the lexemes. -/
theorem usesVariable_of_parsed {text : String} {p : Parsed} (h : parsed text = .ok p) :
    p.usesVariable = p.root.usesVariable ∧
      ∃ tokens, Token.ofText text = .ok tokens ∧ p.usesVariable = mentionsVariable tokens := by
  unfold parsed at h
  cases htext : Token.ofText text with
  | error cause =>
      rw [htext] at h
      cases h
  | ok tokens =>
      rw [htext] at h
      obtain ⟨hmentions, d, rfl, -, -, htree⟩ := parsedOfTokens_eq_ok.mp h
      refine ⟨?_, _, rfl, hmentions⟩
      rw [hmentions, ← htree, d.usesVariable_tree]

end Expression

/-! ### Calculations -/

namespace Calculation

open Expression Outcome

/-- A text that is no expression has no result, for that reason. -/
theorem evaluate_of_error {text : String} {cause : SyntaxError}
    (h : parsed (normalize text) = .error cause) : evaluate text = .error (.parse cause) := by
  simp only [evaluate, parse_eq_map_parsed, h, Except.map]

/-- The result of a text that is an expression is its value without the variable. -/
theorem evaluate_of_ok {text : String} {p : Parsed} (h : parsed (normalize text) = .ok p) :
    evaluate text =
      match p.root.eval? none with
      | none => .error .unboundVariable
      | some v => finite v := by
  have hparse : parse (normalize text) = .ok p.root := by
    simp only [parse_eq_map_parsed, h, Except.map]
  unfold evaluate
  generalize parse (normalize text) = outcome at hparse
  subst hparse
  rfl

/-- Only finite values are results. -/
theorem finite_eq_ok {v w : Double} : finite v = .ok w ↔ w.isFinite = true ∧ v = w := by
  constructor
  · intro h
    cases v with
    | finite negative m =>
        cases h
        exact ⟨rfl, rfl⟩
    | nan => cases h
    | infinite negative => cases h
  · rintro ⟨hfinite, rfl⟩
    cases v with
    | finite negative m => rfl
    | nan => cases hfinite
    | infinite negative => cases hfinite

/-- The other values are told apart. -/
theorem finite_eq_error {v : Double} {cause : CalculationError} :
    finite v = .error cause ↔
      v = .nan ∧ cause = .notANumber ∨ ∃ negative, v = .infinite negative ∧ cause = .infinite := by
  cases v <;> simp [finite, eq_comm]

/--
**What the variable decides.**  For every text that is an expression, the note taken while reading
says whether the variable occurs in the tree, and whether it is one of the lexemes.  With a value
for the variable the tree has a value, whatever the value is; without one it has none exactly if it
uses the variable, and else the same as with any.

A calculation fails as the text does that is no expression; it fails for want of the variable
exactly if the expression uses it; and otherwise the value of the tree is its result if it is
finite, and the reason of its failure if it is not.
-/
theorem value_by_variable (text : String) :
    (∀ p, parsed text = .ok p → parse text = .ok p.root ∧
      (p.usesVariable = true ↔ Occurs .unknown p.root) ∧
      (∃ tokens, Token.ofText text = .ok tokens ∧
        (p.usesVariable = true ↔ Token.word "x" ∈ tokens)) ∧
      (∀ v, ∃ y, p.root.eval? (some v) = some y) ∧
      (p.root.eval? none = none ↔ p.usesVariable = true) ∧
      (p.usesVariable = false → ∀ v, p.root.eval? none = p.root.eval? (some v))) ∧
    (∀ cause, evaluate text = .error (.parse cause) ↔ parsed (normalize text) = .error cause) ∧
    (evaluate text = .error .unboundVariable ↔
      ∃ p, parsed (normalize text) = .ok p ∧ p.usesVariable = true) ∧
    (∀ v, evaluate text = .ok v ↔ v.isFinite = true ∧
      ∃ p, parsed (normalize text) = .ok p ∧ p.root.eval? none = some v) ∧
    (evaluate text = .error .notANumber ↔
      ∃ p, parsed (normalize text) = .ok p ∧ p.root.eval? none = some .nan) ∧
    (evaluate text = .error .infinite ↔
      ∃ p negative, parsed (normalize text) = .ok p ∧
        p.root.eval? none = some (.infinite negative)) := by
  constructor
  · intro p h
    obtain ⟨htree, tokens, htokens, hmentions⟩ := usesVariable_of_parsed h
    refine ⟨?_, ?_, ⟨tokens, htokens, ?_⟩, fun v => exists_eval? v p.root, ?_, ?_⟩
    · rw [parse_eq_map_parsed, h]
      rfl
    · rw [htree, usesVariable_iff_occurs]
    · rw [hmentions, mentionsVariable, decide_eq_true_eq]
    · rw [htree, eval?_none_eq_none_iff]
    · intro hvariable v
      exact eval?_congr none (some v) p.root (htree ▸ hvariable)
  · cases hparsed : parsed (normalize text) with
    | error cause => simp [evaluate_of_error hparsed]
    | ok p =>
        have hvariable : p.usesVariable = true ↔ p.root.eval? none = none := by
          rw [(usesVariable_of_parsed hparsed).1, eval?_none_eq_none_iff]
        rw [evaluate_of_ok hparsed]
        cases hvalue : p.root.eval? none with
        | none => simp [hvariable, hvalue]
        | some v => simp [hvariable, hvalue, finite_eq_ok, finite_eq_error]

end Calculation

end Reckoner
