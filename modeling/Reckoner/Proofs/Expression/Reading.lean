/-
The reader of expressions accepts what the grammar derives, within the limits.

In one direction the reader is run along a derivation: it finds every phrase, stops where
the phrase stops, has counted as many operators as the derivation has, and has met the
variable if it is one of the lexemes.  In the other direction a derivation is built from a
successful run.  The depth that the reader may still use bounds how deep `signed` is nested, and
the operators it has counted bound how many there are, so both limits come out exactly.

The bounds on the steps of the two loops are never reached: a chain with more links than
there may be operators has failed before, and arguments are no more than their lexemes.
-/
import Reckoner.Proofs.Expression.Unambiguous

namespace Reckoner

/-- The grammar and the table of functions agree on the numbers of arguments. -/
theorem MathFunction.accepts_iff {f : MathFunction} {count : Nat} :
    f.accepts count = true ↔ count ∈ f.argumentCounts := by
  rw [accepts, Bool.and_eq_true, decide_eq_true_eq, decide_eq_true_eq]
  cases f <;>
    simp only [minArity, maxArity, argumentCounts, List.mem_cons, List.not_mem_nil, or_false] <;>
    omega

/-- Only the functions have their names. -/
theorem MathFunction.name_of_ofName? {name : String} {f : MathFunction}
    (h : ofName? name = some f) : f.name = name := by
  simpa using List.find?_some h

namespace Expression

/-- The operator for which a lexeme stands at a level. -/
def Level.op? : Level → Token → Option BinaryOp
  | sum => additive?
  | product => multiplicative?

/-- The reader of a phrase, given the depth that is left. -/
def Phrase.reader (depth : Nat) : Phrase → Reader
  | chain .sum => Expression.sum (Expression.signed depth)
  | chain .product => Expression.product (Expression.signed depth)
  | signed => Expression.signed depth
  | power => Expression.power (Expression.signed depth)
  | primary => Expression.primary (Expression.signed depth)

@[simp] theorem reader_sum (depth : Nat) :
    (Phrase.chain .sum).reader depth = Expression.sum (Expression.signed depth) := rfl

@[simp] theorem reader_signed (depth : Nat) :
    Phrase.signed.reader depth = Expression.signed depth := rfl

@[simp] theorem reader_power (depth : Nat) :
    Phrase.power.reader depth = Expression.power (Expression.signed depth) := rfl

@[simp] theorem reader_primary (depth : Nat) :
    Phrase.primary.reader depth = Expression.primary (Expression.signed depth) := rfl

theorem reader_chain (depth : Nat) (level : Level) :
    (Phrase.chain level).reader depth = chain level.op? (level.operand.reader depth) := by
  cases level <;> rfl

theorem joins_iff {level : Level} {t : Token} {op : BinaryOp} :
    Joins level t op ↔ level.op? t = some op := by
  constructor
  · intro h
    cases h <;> rfl
  · intro h
    cases level <;> cases t <;> cases h <;> constructor

/-- No word joins operands. -/
theorem Joins.ne_word {level : Level} {t : Token} {op : BinaryOp} (h : Joins level t op)
    (name : String) : t ≠ .word name := by
  cases h <;> simp

/-- What ends a chain is none of its operators. -/
theorem op?_eq_none {level : Level} {t : Token} {rest : List Token}
    (h : (Phrase.chain level).EndsBefore (t :: rest)) : level.op? t = none := by
  rw [endsBefore_cons] at h
  cases hop : level.op? t with
  | none => rfl
  | some op => exact absurd (joins_iff.mpr hop).continues h

/-! ### Lexemes at the start -/

/-- No phrase starts with a closing parenthesis, and none is empty. -/
theorem Derivation.yield_eq_cons : ∀ {phrase : Phrase} (d : Derivation phrase),
    ∃ t rest, d.yield = t :: rest ∧ t ≠ .closing
  | _, .chain first links => by
      obtain ⟨t, rest, hyield, ht⟩ := first.yield_eq_cons
      exact ⟨t, rest ++ links.yield, by simp [Derivation.yield, hyield], ht⟩
  | _, .plus inner => ⟨_, _, rfl, by simp⟩
  | _, .minus inner => ⟨_, _, rfl, by simp⟩
  | _, .unsigned inner => inner.yield_eq_cons
  | _, .bare base => base.yield_eq_cons
  | _, .raised base exponent => by
      obtain ⟨t, rest, hyield, ht⟩ := base.yield_eq_cons
      exact ⟨t, rest ++ .caret :: exponent.yield, by simp [Derivation.yield, hyield], ht⟩
  | _, .number v => ⟨_, _, rfl, by simp⟩
  | _, .unknown => ⟨_, _, rfl, by simp⟩
  | _, .pi => ⟨_, _, rfl, by simp⟩
  | _, .e => ⟨_, _, rfl, by simp⟩
  | _, .call f fits args => ⟨_, _, rfl, by simp⟩
  | _, .group inner => ⟨_, _, rfl, by simp⟩

theorem Arguments.yield_eq_cons {count : Nat} (args : Arguments count) :
    ∃ t rest, args.yield = t :: rest ∧ t ≠ .closing := by
  cases args with
  | last arg => exact arg.yield_eq_cons
  | more arg args =>
      obtain ⟨t, rest, hyield, ht⟩ := arg.yield_eq_cons
      exact ⟨t, rest ++ .comma :: args.yield, by simp [Arguments.yield, hyield], ht⟩

/-- Every argument has a lexeme. -/
theorem Arguments.count_le : ∀ {count : Nat} (args : Arguments count), count ≤ args.yield.length
  | _, .last arg => by
      obtain ⟨t, rest, hyield, -⟩ := arg.yield_eq_cons
      simp [Arguments.yield, hyield]
  | _, .more arg args => by
      have := args.count_le
      simp only [Arguments.yield, List.length_append, List.length_cons]
      omega

theorem Arguments.length_trees : ∀ {count : Nat} (args : Arguments count),
    args.trees.length = count
  | _, .last arg => rfl
  | _, .more arg args => by rw [Arguments.trees, List.length_cons, args.length_trees]

/-! ### Lexemes that are the variable -/

/-- Whether the variable is one of some lexemes. -/
def mentionsVariable (tokens : List Token) : Bool := decide (Token.word "x" ∈ tokens)

@[simp] theorem mentionsVariable_nil : mentionsVariable [] = false := rfl

@[simp] theorem mentionsVariable_cons (t : Token) (rest : List Token) :
    mentionsVariable (t :: rest) = (decide (t = .word "x") || mentionsVariable rest) := by
  simp only [mentionsVariable, List.mem_cons, eq_comm, Bool.decide_or]

@[simp] theorem mentionsVariable_append (before after : List Token) :
    mentionsVariable (before ++ after) = (mentionsVariable before || mentionsVariable after) := by
  simp only [mentionsVariable, List.mem_append, Bool.decide_or]

/-! ### What is derived is read -/

/-- A power is read where there is no sign. -/
theorem signed_of_power {depth n : Nat} {b : Bool} (d : Derivation .power) (rest : List Token) :
    signed (depth + 1) ⟨d.yield ++ rest, n, b⟩ = power (signed depth) ⟨d.yield ++ rest, n, b⟩ := by
  obtain ⟨t, tail, hyield, ht⟩ := power_starts d
  rw [hyield, List.cons_append]
  cases t <;> first | rfl | exact Bool.noConfusion ht

/-- Counting stays below the limit if the number to be reached is. -/
theorem countOperator_ok {tokens : List Token} {n : Nat} {b : Bool} (h : n + 1 ≤ maxOperators) :
    countOperator ⟨tokens, n, b⟩ = .ok ⟨tokens, n + 1, b⟩ := by
  rw [countOperator, if_pos (by exact h)]

/-- The name of a function is followed by its arguments. -/
theorem word_name (f : MathFunction) (signed : Reader) (input : Input) :
    word f.name signed input = callOf f signed input := by
  obtain ⟨hx, hpi, he⟩ := f.name_ne
  rw [word, if_neg hx, if_neg hpi, if_neg he, f.ofName?_name]

/-- After an opening parenthesis that is not closed at once there are arguments. -/
theorem callOf_opening (f : MathFunction) (signed : Reader) {t : Token} (rest : List Token)
    (n : Nat) (b : Bool) (ht : t ≠ .closing) :
    callOf f signed ⟨.opening :: t :: rest, n, b⟩ =
      argumentsRest f signed ((t :: rest).length + 1) [] ⟨t :: rest, n, b⟩ >>= fun r =>
        callOf.finish f r.1 r.2 := by
  cases t <;> first | rfl | exact absurd rfl ht

mutual

/-- **What is derived is read**, if it is within the limits, and no more than it. -/
theorem Derivation.reader_yield : ∀ {phrase : Phrase} (d : Derivation phrase) {depth n : Nat}
    {b : Bool} {rest : List Token}, d.nesting ≤ depth → n + d.operators ≤ maxOperators →
    phrase.EndsBefore rest →
    phrase.reader depth ⟨d.yield ++ rest, n, b⟩ =
      .ok (d.tree, ⟨rest, n + d.operators, b || mentionsVariable d.yield⟩)
  | _, .chain first links, depth, n, b, rest, hdepth, hn, hrest => by
      simp only [Derivation.nesting, Nat.max_le] at hdepth
      simp only [Derivation.operators] at hn
      have hfirst := first.reader_yield (b := b) hdepth.1
        (by omega : n + first.operators ≤ maxOperators) (links_endsBefore links hrest)
      have hlinks := links.chainRest_yield (b := b || mentionsVariable first.yield)
        (maxOperators + 1) first.tree hdepth.2
        (by omega : n + first.operators + links.operators ≤ maxOperators) hrest (by omega)
      rw [reader_chain, Derivation.yield, List.append_assoc, chain, hfirst]
      rw [Derivation.tree, Derivation.operators, ← Nat.add_assoc, mentionsVariable_append,
        ← Bool.or_assoc]
      exact hlinks
  | _, .plus inner, depth, n, b, rest, hdepth, hn, hrest => by
      obtain ⟨depth, rfl⟩ := Nat.exists_eq_add_of_le' (Nat.le_trans (Nat.succ_pos _) hdepth)
      have hinner := inner.reader_yield (b := b) (Nat.le_of_succ_le_succ hdepth) hn hrest
      rw [reader_signed] at hinner
      rw [reader_signed, Derivation.yield, List.cons_append, signed]
      simp only [hinner, mentionsVariable_cons]
      rfl
  | _, .minus inner, depth, n, b, rest, hdepth, hn, hrest => by
      obtain ⟨depth, rfl⟩ := Nat.exists_eq_add_of_le' (Nat.le_trans (Nat.succ_pos _) hdepth)
      have hinner := inner.reader_yield (b := b) (Nat.le_of_succ_le_succ hdepth) hn hrest
      rw [reader_signed] at hinner
      rw [reader_signed, Derivation.yield, List.cons_append, signed]
      simp only [hinner, mentionsVariable_cons]
      rfl
  | _, .unsigned inner, depth, n, b, rest, hdepth, hn, hrest => by
      obtain ⟨depth, rfl⟩ := Nat.exists_eq_add_of_le' (Nat.le_trans (Nat.succ_pos _) hdepth)
      rw [reader_signed, Derivation.yield, signed_of_power]
      exact inner.reader_yield (Nat.le_of_succ_le_succ hdepth) hn hrest
  | _, .bare base, depth, n, b, rest, hdepth, hn, hrest => by
      have hbase := base.reader_yield (b := b) hdepth hn (primary_endsBefore rest)
      rw [reader_primary] at hbase
      rw [reader_power, Derivation.yield, power, hbase]
      cases rest with
      | nil => rfl
      | cons t rest =>
          rw [endsBefore_cons] at hrest
          cases t <;> first | rfl | simp [Phrase.continuers] at hrest
  | _, .raised base exponent, depth, n, b, rest, hdepth, hn, hrest => by
      simp only [Derivation.nesting, Nat.max_le] at hdepth
      simp only [Derivation.operators] at hn
      have hbase := base.reader_yield (b := b) hdepth.1
        (by omega : n + base.operators ≤ maxOperators)
        (primary_endsBefore (.caret :: (exponent.yield ++ rest)))
      have hexponent := exponent.reader_yield (b := b || mentionsVariable base.yield) hdepth.2
        (by omega : n + base.operators + exponent.operators ≤ maxOperators) hrest
      rw [reader_primary] at hbase
      rw [reader_signed] at hexponent
      rw [reader_power, Derivation.yield, List.append_assoc, List.cons_append, power, hbase]
      show (do let (e, input) ← signed depth
                 ⟨exponent.yield ++ rest, n + base.operators, b || mentionsVariable base.yield⟩
               return (Expression.binary .pow base.tree e, input)) = _
      rw [hexponent, Derivation.tree, Derivation.operators, ← Nat.add_assoc,
        mentionsVariable_append, mentionsVariable_cons, ← Bool.or_assoc]
      rfl
  | _, .number v, depth, n, b, rest, hdepth, hn, hrest => by
      rw [Derivation.yield, mentionsVariable_cons]
      simp
      rfl
  | _, .unknown, depth, n, b, rest, hdepth, hn, hrest => by
      rw [Derivation.yield, mentionsVariable_cons]
      simp
      rfl
  | _, .pi, depth, n, b, rest, hdepth, hn, hrest => by
      rw [Derivation.yield, mentionsVariable_cons]
      simp
      rfl
  | _, .e, depth, n, b, rest, hdepth, hn, hrest => by
      rw [Derivation.yield, mentionsVariable_cons]
      simp
      rfl
  | _, .call f fits args, depth, n, b, rest, hdepth, hn, hrest => by
      obtain ⟨t, tail, hyield, ht⟩ := args.yield_eq_cons
      have hcount := args.count_le
      have hargs := args.argumentsRest_yield (b := b) f
        ((args.yield ++ .closing :: rest).length + 1) []
        rest hdepth hn (by rw [List.length_append]; omega)
      have hmentions : mentionsVariable (.word f.name :: .opening :: (args.yield ++ [.closing])) =
          mentionsVariable args.yield := by
        simp [f.name_ne.1]
      rw [reader_primary, Derivation.yield, hmentions, List.cons_append, List.cons_append,
        List.append_assoc, List.cons_append, List.nil_append]
      show word f.name (signed depth) ⟨.opening :: (args.yield ++ .closing :: rest), n, b⟩ = _
      rw [hyield, List.cons_append] at hargs ⊢
      rw [word_name, callOf_opening f _ _ n b ht, hargs]
      show callOf.finish f args.trees _ = _
      rw [callOf.finish, args.length_trees, if_pos (MathFunction.accepts_iff.mpr fits)]
      rfl
  | _, .group inner, depth, n, b, rest, hdepth, hn, hrest => by
      have hinner := inner.reader_yield (b := b) hdepth hn (sum_endsBefore_closing rest)
      have hmentions : mentionsVariable (.opening :: (inner.yield ++ [.closing])) =
          mentionsVariable inner.yield := by
        simp
      rw [reader_sum] at hinner
      rw [reader_primary, Derivation.yield, hmentions, List.cons_append, List.append_assoc, primary]
      simp only [List.cons_append, List.nil_append, hinner]
      rfl

/-- The links of a chain are read, and no more than they. -/
theorem Links.chainRest_yield : ∀ {level : Level} (links : Links level) {depth n : Nat} {b : Bool}
    (steps : Nat) (lhs : Expression) {rest : List Token}, links.nesting ≤ depth →
    n + links.operators ≤ maxOperators → (Phrase.chain level).EndsBefore rest →
    links.operators < steps →
    chainRest level.op? (level.operand.reader depth) steps lhs ⟨links.yield ++ rest, n, b⟩ =
      .ok (links.join lhs, ⟨rest, n + links.operators, b || mentionsVariable links.yield⟩)
  | _, .stop, depth, n, b, steps, lhs, rest, hdepth, hn, hrest, hsteps => by
      obtain ⟨steps, rfl⟩ := Nat.exists_eq_add_of_le' (Nat.le_trans (Nat.succ_pos _) hsteps)
      rw [Links.yield, mentionsVariable_nil, Bool.or_false]
      cases rest with
      | nil => rfl
      | cons t rest =>
          rw [List.nil_append, chainRest]
          simp only [op?_eq_none hrest]
          rfl
  | level, @Links.link _ t op joins operand links, depth, n, b, steps, lhs, rest, hdepth, hn,
      hrest, hsteps => by
      obtain ⟨steps, rfl⟩ := Nat.exists_eq_add_of_le' (Nat.le_trans (Nat.succ_pos _) hsteps)
      simp only [Links.nesting, Nat.max_le] at hdepth
      simp only [Links.operators] at hn hsteps
      have hoperand := operand.reader_yield (b := b) hdepth.1
        (by omega : n + operand.operators ≤ maxOperators) (links_endsBefore links hrest)
      have hlinks := links.chainRest_yield (b := b || mentionsVariable operand.yield) steps
        (.binary op lhs operand.tree) hdepth.2
        (by omega : n + operand.operators + 1 + links.operators ≤ maxOperators) hrest (by omega)
      have hmentions : mentionsVariable (t :: (operand.yield ++ links.yield)) =
          (mentionsVariable operand.yield || mentionsVariable links.yield) := by
        simp [joins.ne_word]
      rw [Links.yield, hmentions, List.cons_append, List.append_assoc, chainRest]
      simp only [joins_iff.mp joins]
      rw [hoperand]
      show (countOperator ⟨links.yield ++ rest, n + operand.operators,
          b || mentionsVariable operand.yield⟩ >>= fun input =>
        chainRest level.op? (level.operand.reader depth) steps (.binary op lhs operand.tree) input)
          = _
      rw [countOperator_ok (by omega), Links.join, Links.operators, ← Nat.add_assoc,
        ← Nat.add_assoc, ← Bool.or_assoc]
      exact hlinks

/-- Arguments are read up to the closing parenthesis. -/
theorem Arguments.argumentsRest_yield : ∀ {count : Nat} (args : Arguments count) (f : MathFunction)
    {depth n : Nat} {b : Bool} (steps : Nat) (before : List Expression) (rest : List Token),
    args.nesting ≤ depth → n + args.operators ≤ maxOperators → count ≤ steps →
    argumentsRest f (signed depth) steps before ⟨args.yield ++ .closing :: rest, n, b⟩ =
      .ok (before.reverse ++ args.trees,
        ⟨rest, n + args.operators, b || mentionsVariable args.yield⟩)
  | _, .last arg, f, depth, n, b, steps, before, rest, hdepth, hn, hsteps => by
      obtain ⟨steps, rfl⟩ := Nat.exists_eq_add_of_le' hsteps
      have harg := arg.reader_yield (b := b) hdepth hn (sum_endsBefore_closing rest)
      rw [reader_sum] at harg
      rw [Arguments.yield, argumentsRest, harg, Arguments.trees, Arguments.operators]
      simp [bind, Except.bind, pure, Except.pure]
  | _, .more arg args, f, depth, n, b, steps, before, rest, hdepth, hn, hsteps => by
      obtain ⟨steps, rfl⟩ := Nat.exists_eq_add_of_le' (Nat.le_trans (Nat.succ_pos _) hsteps)
      simp only [Arguments.nesting, Nat.max_le] at hdepth
      simp only [Arguments.operators] at hn
      have harg := arg.reader_yield (b := b) hdepth.1 (by omega : n + arg.operators ≤ maxOperators)
        (sum_endsBefore_comma (args.yield ++ .closing :: rest))
      have hargs := args.argumentsRest_yield (b := b || mentionsVariable arg.yield) f steps
        (arg.tree :: before) rest hdepth.2
        (by omega : n + arg.operators + args.operators ≤ maxOperators)
        (Nat.le_of_succ_le_succ hsteps)
      have hmentions : mentionsVariable (arg.yield ++ .comma :: args.yield) =
          (mentionsVariable arg.yield || mentionsVariable args.yield) := by
        simp
      rw [reader_sum] at harg
      rw [Arguments.yield, hmentions, List.append_assoc, List.cons_append, argumentsRest, harg,
        Arguments.trees, Arguments.operators, ← Nat.add_assoc]
      show argumentsRest f (signed depth) steps (arg.tree :: before)
        ⟨args.yield ++ .closing :: rest, n + arg.operators, b || mentionsVariable arg.yield⟩ = _
      rw [hargs, List.reverse_cons, List.append_assoc, List.cons_append, List.nil_append,
        ← Bool.or_assoc]

end

end Expression

end Reckoner
