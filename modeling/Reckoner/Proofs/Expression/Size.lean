/-
How large a tree is that has been read.

No check looks at the height of a tree, but the two limits of the grammar bound it.  An
operator of a chain makes the tree higher by one and is counted.  Whatever else makes it
higher is met between one `signed` and the next one inside it, where there are at most two
such edges: one into a power, and one into a call that is its base.  So a tree is no
higher than its chained operators and twice the nesting of `signed` together.
-/
import Reckoner.Proofs.Expression.Parser

namespace Reckoner

/-- Whether an operator chains with others without nesting. -/
def BinaryOp.chains : BinaryOp → Bool
  | pow => false
  | _ => true

namespace Expression

/-! ### Measures of a tree -/

/-- One expression occurs in another as a subtree. -/
inductive Occurs (part : Expression) : Expression → Prop
  | here : Occurs part part
  | neg {a : Expression} (h : Occurs part a) : Occurs part (.neg a)
  | left {op : BinaryOp} {a b : Expression} (h : Occurs part a) : Occurs part (.binary op a b)
  | right {op : BinaryOp} {a b : Expression} (h : Occurs part b) : Occurs part (.binary op a b)
  | arg {f : MathFunction} {args : List Expression} {a : Expression} (ha : a ∈ args)
      (h : Occurs part a) : Occurs part (.call f args)

mutual

/-- The number of edges on the longest way from the root to a leaf. -/
def height : Expression → Nat
  | number _ => 0
  | unknown => 0
  | neg a => a.height + 1
  | binary _ a b => max a.height b.height + 1
  | call _ args => heightAbove args

/-- The height of a node with the given subtrees. -/
def heightAbove : List Expression → Nat
  | [] => 0
  | a :: rest => max (a.height + 1) (heightAbove rest)

end

mutual

/-- The number of nodes with an operator that chains. -/
def chained : Expression → Nat
  | number _ => 0
  | unknown => 0
  | neg a => a.chained
  | binary op a b => a.chained + b.chained + op.chains.toNat
  | call _ args => allChained args

/-- The number of nodes with an operator that chains in several trees. -/
def allChained : List Expression → Nat
  | [] => 0
  | a :: rest => a.chained + allChained rest

end

/-- Every call in a tree has as many arguments as its function takes. -/
def CallsFit (e : Expression) : Prop :=
  ∀ f args, Occurs (.call f args) e → f.accepts args.length = true

theorem callsFit_number (v : Double) : CallsFit (.number v) := by
  intro f args h
  cases h

theorem callsFit_unknown : CallsFit .unknown := by
  intro f args h
  cases h

theorem CallsFit.neg {a : Expression} (ha : CallsFit a) : CallsFit (.neg a) := by
  intro f args h
  cases h with
  | neg h => exact ha f args h

theorem CallsFit.binary {a b : Expression} (ha : CallsFit a) (hb : CallsFit b) (op : BinaryOp) :
    CallsFit (.binary op a b) := by
  intro f args h
  cases h with
  | left h => exact ha f args h
  | right h => exact hb f args h

theorem CallsFit.call {f : MathFunction} {args : List Expression}
    (hargs : ∀ a ∈ args, CallsFit a) (hfits : f.accepts args.length = true) :
    CallsFit (.call f args) := by
  intro g args' h
  cases h with
  | here => exact hfits
  | arg ha h => exact hargs _ ha g args' h

/-! ### Calls -/

mutual

/-- A derivation makes only calls that fit. -/
theorem Derivation.callsFit_tree : ∀ {phrase : Phrase} (d : Derivation phrase), CallsFit d.tree
  | _, .chain first links => links.callsFit_join first.callsFit_tree
  | _, .plus inner => inner.callsFit_tree
  | _, .minus inner => inner.callsFit_tree.neg
  | _, .unsigned inner => inner.callsFit_tree
  | _, .bare base => base.callsFit_tree
  | _, .raised base exponent => base.callsFit_tree.binary exponent.callsFit_tree .pow
  | _, .number v => callsFit_number v
  | _, .unknown => callsFit_unknown
  | _, .pi => callsFit_number _
  | _, .e => callsFit_number _
  | _, .call f fits args => by
      refine CallsFit.call args.callsFit_trees ?_
      rw [args.length_trees]
      exact MathFunction.accepts_iff.mpr fits
  | _, .group inner => inner.callsFit_tree

/-- Links make no call that does not fit. -/
theorem Links.callsFit_join : ∀ {level : Level} (links : Links level) {lhs : Expression},
    CallsFit lhs → CallsFit (links.join lhs)
  | _, .stop, _, hlhs => hlhs
  | _, @Links.link _ _ op _ operand links, _, hlhs =>
      links.callsFit_join (hlhs.binary operand.callsFit_tree op)

/-- The calls in arguments fit. -/
theorem Arguments.callsFit_trees : ∀ {count : Nat} (args : Arguments count),
    ∀ a ∈ args.trees, CallsFit a
  | _, .last arg, a, ha => by
      rw [List.mem_singleton.mp ha]
      exact arg.callsFit_tree
  | _, .more arg args, a, ha => by
      rcases List.mem_cons.mp ha with rfl | ha
      · exact arg.callsFit_tree
      · exact args.callsFit_trees a ha

end

/-! ### Chained operators -/

theorem Joins.chains {level : Level} {t : Token} {op : BinaryOp} (h : Joins level t op) :
    op.chains = true := by
  cases h <;> rfl

mutual

/-- The operators that a derivation counts are those that chain in its tree. -/
theorem Derivation.chained_tree : ∀ {phrase : Phrase} (d : Derivation phrase),
    d.tree.chained = d.operators
  | _, .chain first links => by
      rw [Derivation.tree, links.chained_join, first.chained_tree, Derivation.operators]
  | _, .plus inner => inner.chained_tree
  | _, .minus inner => inner.chained_tree
  | _, .unsigned inner => inner.chained_tree
  | _, .bare base => base.chained_tree
  | _, .raised base exponent => by
      rw [Derivation.tree, chained, base.chained_tree, exponent.chained_tree,
        Derivation.operators]
      rfl
  | _, .number v => rfl
  | _, .unknown => rfl
  | _, .pi => rfl
  | _, .e => rfl
  | _, .call f _ args => args.allChained_trees
  | _, .group inner => inner.chained_tree

/-- Each link adds its operator and those of its operand. -/
theorem Links.chained_join : ∀ {level : Level} (links : Links level) (lhs : Expression),
    (links.join lhs).chained = lhs.chained + links.operators
  | _, .stop, _ => rfl
  | _, @Links.link _ _ op joins operand links, lhs => by
      rw [Links.join, links.chained_join, chained, operand.chained_tree, joins.chains,
        Links.operators, Bool.toNat_true]
      omega

/-- The operators in arguments are counted together. -/
theorem Arguments.allChained_trees : ∀ {count : Nat} (args : Arguments count),
    allChained args.trees = args.operators
  | _, .last arg => arg.chained_tree
  | _, .more arg args => by
      rw [Arguments.trees, allChained, arg.chained_tree, args.allChained_trees,
        Arguments.operators]

end

/-! ### Height -/

/-- The edges in a phrase that no `signed` around it has paid for. -/
def Phrase.unpaid : Phrase → Nat
  | chain _ => 0
  | signed => 0
  | power => 2
  | primary => 1

theorem operand_unpaid (level : Level) : level.operand.unpaid = 0 := by
  cases level <;> rfl

mutual

/-- Each chained operator pays for one edge, and each `signed` for two. -/
theorem Derivation.height_tree_le : ∀ {phrase : Phrase} (d : Derivation phrase),
    d.tree.height ≤ d.operators + 2 * d.nesting + phrase.unpaid
  | _, .chain first links => by
      have hfirst := first.height_tree_le
      have hlinks := links.height_join_le first.tree
      rw [operand_unpaid] at hfirst
      simp only [Derivation.tree, Derivation.operators, Derivation.nesting, Phrase.unpaid]
      omega
  | _, .plus inner => by
      have hinner := inner.height_tree_le
      simp only [Derivation.tree, Derivation.operators, Derivation.nesting, Phrase.unpaid]
        at hinner ⊢
      omega
  | _, .minus inner => by
      have hinner := inner.height_tree_le
      simp only [Derivation.tree, Derivation.operators, Derivation.nesting, Phrase.unpaid, height]
        at hinner ⊢
      omega
  | _, .unsigned inner => by
      have hinner := inner.height_tree_le
      simp only [Derivation.tree, Derivation.operators, Derivation.nesting, Phrase.unpaid]
        at hinner ⊢
      omega
  | _, .bare base => by
      have hbase := base.height_tree_le
      simp only [Derivation.tree, Derivation.operators, Derivation.nesting, Phrase.unpaid]
        at hbase ⊢
      omega
  | _, .raised base exponent => by
      have hbase := base.height_tree_le
      have hexponent := exponent.height_tree_le
      simp only [Derivation.tree, Derivation.operators, Derivation.nesting, Phrase.unpaid, height]
        at hbase hexponent ⊢
      omega
  | _, .number v => Nat.zero_le _
  | _, .unknown => Nat.zero_le _
  | _, .pi => Nat.zero_le _
  | _, .e => Nat.zero_le _
  | _, .call f _ args => args.heightAbove_trees_le
  | _, .group inner => by
      have hinner := inner.height_tree_le
      simp only [Derivation.tree, Derivation.operators, Derivation.nesting, Phrase.unpaid]
        at hinner ⊢
      omega

/-- Links make what stands to their left higher by their number, or rise with their operands. -/
theorem Links.height_join_le : ∀ {level : Level} (links : Links level) (lhs : Expression),
    (links.join lhs).height ≤ max lhs.height (2 * links.nesting) + links.operators
  | _, .stop, lhs => Nat.le_max_left _ _
  | level, @Links.link _ _ op _ operand links, lhs => by
      have hoperand := operand.height_tree_le
      have hlinks := links.height_join_le (.binary op lhs operand.tree)
      rw [operand_unpaid] at hoperand
      simp only [Links.join, Links.operators, Links.nesting, height] at hlinks ⊢
      omega

/-- A call is one edge above its arguments. -/
theorem Arguments.heightAbove_trees_le : ∀ {count : Nat} (args : Arguments count),
    heightAbove args.trees ≤ args.operators + 2 * args.nesting + 1
  | _, .last arg => by
      have harg := arg.height_tree_le
      simp only [Arguments.trees, Arguments.operators, Arguments.nesting, Phrase.unpaid,
        heightAbove] at harg ⊢
      omega
  | _, .more arg args => by
      have harg := arg.height_tree_le
      have hargs := args.heightAbove_trees_le
      simp only [Arguments.trees, Arguments.operators, Arguments.nesting, Phrase.unpaid,
        heightAbove] at harg ⊢
      omega

end

/-! ### What is read -/

/-- What is read from a text has a derivation within the limits. -/
theorem derivation_of_parse {text : String} {e : Expression} (h : parse text = .ok e) :
    ∃ d : Derivation (.chain .sum), d.nesting ≤ maxDepth ∧ d.operators ≤ maxOperators ∧
      d.tree = e := by
  rw [parse] at h
  cases htext : Token.ofText text with
  | error cause =>
      rw [htext] at h
      cases h
  | ok tokens =>
      rw [htext] at h
      obtain ⟨d, -, hd⟩ := ofTokens_eq_ok.mp h
      exact ⟨d, hd⟩

/-- Arguments that have values have as many values. -/
theorem length_evalAll? {x : Option Double} :
    ∀ {args : List Expression} {values : List Double}, evalAll? x args = some values →
      values.length = args.length := by
  intro args
  induction args with
  | nil =>
      intro values h
      cases h
      rfl
  | cons a args ih =>
      intro values h
      simp only [evalAll?, Option.bind_eq_bind, Option.bind_eq_some_iff] at h
      obtain ⟨v, -, rest, hrest, h⟩ := h
      cases h
      rw [List.length_cons, List.length_cons, ih hrest]

/-- A function that accepts a number of arguments finds those among them that it reads. -/
theorem reads_of_accepts {f : MathFunction} {count : Nat} (h : f.accepts count = true) :
    0 < count ∧ (f = .pow → 1 < count) := by
  rw [MathFunction.accepts, Bool.and_eq_true, decide_eq_true_eq, decide_eq_true_eq] at h
  refine ⟨?_, ?_⟩
  · have hone : 1 ≤ f.minArity := by cases f <;> decide
    omega
  · rintro rfl
    exact h.1

/--
**What is read is safe to evaluate.**  However long the text is, every call in the tree has as many
arguments as its function takes, so that a function is never applied without its first value, nor
a power without its second; at most 1024 of the operators in the tree chain, and it is at most
`1024 + 2 * 128` edges high.
-/
theorem parse_bounded {text : String} {e : Expression} (h : parse text = .ok e) :
    (∀ f args, Occurs (.call f args) e → f.accepts args.length = true ∧
      ∀ x values, evalAll? x args = some values →
        0 < values.length ∧ (f = .pow → 1 < values.length)) ∧
    e.chained ≤ 1024 ∧ e.height ≤ 1280 := by
  obtain ⟨d, hdepth, hoperators, rfl⟩ := derivation_of_parse h
  have hheight := d.height_tree_le
  simp only [Phrase.unpaid, maxDepth, maxOperators] at hheight hdepth hoperators
  refine ⟨?_, ?_, by omega⟩
  · intro f args hcall
    have hfits := d.callsFit_tree f args hcall
    refine ⟨hfits, ?_⟩
    intro x values hvalues
    rw [length_evalAll? hvalues]
    exact reads_of_accepts hfits
  · rw [d.chained_tree]
    exact hoperators

/-- A call of two arguments as a factor, and a power as a term. -/
theorem parse_bounded_calls :
    let e : Expression := .binary .add
      (.binary .mul (.call .pow [.unknown, .neg .unknown]) (.call .log [.unknown]))
      (.binary .pow .unknown .unknown)
    parse "pow(x, -x) * log(x) + x ^ x" = .ok e ∧
      (∀ f args, Occurs (.call f args) e → f.accepts args.length = true ∧
        ∀ x values, evalAll? x args = some values →
          0 < values.length ∧ (f = .pow → 1 < values.length)) ∧
      e.chained ≤ 1024 ∧ e.height ≤ 1280 := by
  intro e
  have hparse : parse "pow(x, -x) * log(x) + x ^ x" = .ok e := rfl
  exact ⟨hparse, parse_bounded hparse⟩

end Expression

end Reckoner
