/-
The grammar of expressions, apart from any reader.

A derivation is a tree with one node for each production that is used, so two derivations
of one sequence of lexemes are two ways to read it.  Everything the limits and the result
of a reading depend on is read off the tree: the lexemes it derives, how deep `signed` is
nested in it, how many operators it chains, and the expression it stands for.

    sum     := product (('+' | '-') product)*
    product := signed (('*' | '/') signed)*
    signed  := ('+' | '-') signed | power
    power   := primary ('^' signed)?
    primary := number | 'x' | 'pi' | 'e' | function '(' arguments ')' | '(' sum ')'

Sums and products are chains of the same shape, told apart by their level.
-/
import Reckoner.Expression.Parser

namespace Reckoner

/-- The numbers of arguments with which a function may be called. -/
def MathFunction.argumentCounts : MathFunction → List Nat
  | .log => [1, 2]
  | .pow => [2]
  | _ => [1]

namespace Expression

/-! ### Phrases and their derivations -/

/-- The two levels of operators that chain. -/
inductive Level where
  | sum
  | product

/-- The phrases of the grammar; a sum is a chain, and so is a product. -/
inductive Phrase where
  | chain (level : Level)
  | signed
  | power
  | primary

/-- The phrases that a level joins. -/
def Level.operand : Level → Phrase
  | sum => .chain .product
  | product => .signed

/-- The lexemes that join the operands of a level, with the operators for which they stand. -/
inductive Joins : Level → Token → BinaryOp → Prop
  | plus : Joins .sum .plus .add
  | minus : Joins .sum .minus .sub
  | star : Joins .product .star .mul
  | slash : Joins .product .slash .div

mutual

/-- The derivations of a phrase, with one constructor for each production. -/
inductive Derivation : Phrase → Type
  /-- An operand, and any number of links. -/
  | chain {level : Level} (first : Derivation level.operand) (links : Links level) :
      Derivation (.chain level)
  | plus (inner : Derivation .signed) : Derivation .signed
  | minus (inner : Derivation .signed) : Derivation .signed
  | unsigned (inner : Derivation .power) : Derivation .signed
  | bare (base : Derivation .primary) : Derivation .power
  | raised (base : Derivation .primary) (exponent : Derivation .signed) : Derivation .power
  | number (value : Double) : Derivation .primary
  | unknown : Derivation .primary
  | pi : Derivation .primary
  | e : Derivation .primary
  | call (f : MathFunction) {count : Nat} (fits : count ∈ f.argumentCounts)
      (args : Arguments count) : Derivation .primary
  | group (inner : Derivation (.chain .sum)) : Derivation .primary

/-- The part of a chain that is repeated: operators, each with the operand to its right. -/
inductive Links : Level → Type
  | stop {level : Level} : Links level
  | link {level : Level} {t : Token} {op : BinaryOp} (joins : Joins level t op)
      (operand : Derivation level.operand) (links : Links level) : Links level

/-- A given number of arguments; there is at least one. -/
inductive Arguments : Nat → Type
  | last (arg : Derivation (.chain .sum)) : Arguments 1
  | more {count : Nat} (arg : Derivation (.chain .sum)) (rest : Arguments count) :
      Arguments (count + 1)

end

/-! ### What is read off a derivation -/

mutual

/-- The lexemes that are derived. -/
def Derivation.yield : {phrase : Phrase} → Derivation phrase → List Token
  | _, .chain first links => first.yield ++ links.yield
  | _, .plus inner => .plus :: inner.yield
  | _, .minus inner => .minus :: inner.yield
  | _, .unsigned inner => inner.yield
  | _, .bare base => base.yield
  | _, .raised base exponent => base.yield ++ .caret :: exponent.yield
  | _, .number v => [.number v]
  | _, .unknown => [.word "x"]
  | _, .pi => [.word "pi"]
  | _, .e => [.word "e"]
  | _, .call f _ args => .word f.name :: .opening :: (args.yield ++ [.closing])
  | _, .group inner => .opening :: (inner.yield ++ [.closing])

/-- The lexemes of links. -/
def Links.yield : {level : Level} → Links level → List Token
  | _, .stop => []
  | _, @Links.link _ t _ _ operand links => t :: (operand.yield ++ links.yield)

/-- The lexemes of arguments, with the commas between them. -/
def Arguments.yield : {count : Nat} → Arguments count → List Token
  | _, .last arg => arg.yield
  | _, .more arg rest => arg.yield ++ .comma :: rest.yield

end

mutual

/-- How deep `signed` is nested in itself. -/
def Derivation.nesting : {phrase : Phrase} → Derivation phrase → Nat
  | _, .chain first links => max first.nesting links.nesting
  | _, .plus inner => inner.nesting + 1
  | _, .minus inner => inner.nesting + 1
  | _, .unsigned inner => inner.nesting + 1
  | _, .bare base => base.nesting
  | _, .raised base exponent => max base.nesting exponent.nesting
  | _, .number _ => 0
  | _, .unknown => 0
  | _, .pi => 0
  | _, .e => 0
  | _, .call _ _ args => args.nesting
  | _, .group inner => inner.nesting

/-- How deep `signed` is nested in links. -/
def Links.nesting : {level : Level} → Links level → Nat
  | _, .stop => 0
  | _, .link _ operand links => max operand.nesting links.nesting

/-- How deep `signed` is nested in arguments. -/
def Arguments.nesting : {count : Nat} → Arguments count → Nat
  | _, .last arg => arg.nesting
  | _, .more arg rest => max arg.nesting rest.nesting

end

mutual

/-- The number of operators that chain, which a power is not. -/
def Derivation.operators : {phrase : Phrase} → Derivation phrase → Nat
  | _, .chain first links => first.operators + links.operators
  | _, .plus inner => inner.operators
  | _, .minus inner => inner.operators
  | _, .unsigned inner => inner.operators
  | _, .bare base => base.operators
  | _, .raised base exponent => base.operators + exponent.operators
  | _, .number _ => 0
  | _, .unknown => 0
  | _, .pi => 0
  | _, .e => 0
  | _, .call _ _ args => args.operators
  | _, .group inner => inner.operators

/-- The number of operators in links. -/
def Links.operators : {level : Level} → Links level → Nat
  | _, .stop => 0
  | _, .link _ operand links => operand.operators + 1 + links.operators

/-- The number of operators in arguments. -/
def Arguments.operators : {count : Nat} → Arguments count → Nat
  | _, .last arg => arg.operators
  | _, .more arg rest => arg.operators + rest.operators

end

mutual

/-- The expression for which a derivation stands. -/
def Derivation.tree : {phrase : Phrase} → Derivation phrase → Expression
  | _, .chain first links => links.join first.tree
  | _, .plus inner => inner.tree
  | _, .minus inner => .neg inner.tree
  | _, .unsigned inner => inner.tree
  | _, .bare base => base.tree
  | _, .raised base exponent => .binary .pow base.tree exponent.tree
  | _, .number v => .number v
  | _, .unknown => .unknown
  | _, .pi => .number Double.pi
  | _, .e => .number Double.e
  | _, .call f _ args => .call f args.trees
  | _, .group inner => inner.tree

/-- The expression that links make of what stands to their left; each takes all of it. -/
def Links.join : {level : Level} → Links level → Expression → Expression
  | _, .stop, lhs => lhs
  | _, @Links.link _ _ op _ operand links, lhs => links.join (.binary op lhs operand.tree)

/-- The expressions of arguments, in order. -/
def Arguments.trees : {count : Nat} → Arguments count → List Expression
  | _, .last arg => [arg.tree]
  | _, .more arg rest => arg.tree :: rest.trees

end

/-! ### Where a phrase ends

A phrase is read as far as it goes.  So what follows it must not start with a lexeme that
would continue it, and with that its end is settled by one lexeme.
-/

/-- The lexemes that continue a phrase. -/
def Phrase.continuers : Phrase → List Token
  | chain .sum => [.plus, .minus, .star, .slash, .caret]
  | chain .product => [.star, .slash, .caret]
  | signed => [.caret]
  | power => [.caret]
  | primary => []

/-- What follows a phrase does not continue it. -/
def Phrase.EndsBefore (phrase : Phrase) (rest : List Token) : Prop :=
  ∀ t ∈ rest.head?, t ∉ phrase.continuers

theorem endsBefore_cons {phrase : Phrase} {t : Token} {rest : List Token} :
    phrase.EndsBefore (t :: rest) ↔ t ∉ phrase.continuers := by
  simp [Phrase.EndsBefore]

theorem endsBefore_nil (phrase : Phrase) : phrase.EndsBefore [] := by
  simp [Phrase.EndsBefore]

/-- What ends a chain ends its last operand. -/
theorem operand_endsBefore {level : Level} {rest : List Token}
    (h : (Phrase.chain level).EndsBefore rest) : level.operand.EndsBefore rest := by
  intro t ht hc
  refine h t ht ?_
  cases level with
  | sum =>
      simp only [Level.operand, Phrase.continuers, List.mem_cons, List.not_mem_nil, or_false]
        at hc ⊢
      rcases hc with hc | hc | hc <;> simp [hc]
  | product =>
      simp only [Level.operand, Phrase.continuers, List.mem_cons, List.not_mem_nil, or_false]
        at hc ⊢
      simp [hc]

/-- A joining lexeme ends the operand to its left. -/
theorem Joins.ends_operand {level : Level} {t : Token} {op : BinaryOp} (h : Joins level t op)
    (rest : List Token) : level.operand.EndsBefore (t :: rest) := by
  rw [endsBefore_cons]
  cases h <;> simp [Level.operand, Phrase.continuers]

/-- A joining lexeme continues its chain. -/
theorem Joins.continues {level : Level} {t : Token} {op : BinaryOp} (h : Joins level t op) :
    t ∈ (Phrase.chain level).continuers := by
  cases h <;> simp [Phrase.continuers]

/-- A lexeme stands for one operator at most. -/
theorem Joins.unique {level : Level} {t : Token} {op op' : BinaryOp} (h : Joins level t op)
    (h' : Joins level t op') : op = op' := by
  cases h <;> cases h' <;> rfl

/-- The links of a chain do not go on before what ends it. -/
theorem links_endsBefore {level : Level} (links : Links level) {rest : List Token}
    (h : (Phrase.chain level).EndsBefore rest) :
    level.operand.EndsBefore (links.yield ++ rest) := by
  cases links with
  | stop => exact operand_endsBefore h
  | link joins operand links =>
      rw [Links.yield, List.cons_append]
      exact joins.ends_operand _

theorem sum_endsBefore_closing (rest : List Token) :
    (Phrase.chain .sum).EndsBefore (.closing :: rest) := by
  rw [endsBefore_cons]
  simp [Phrase.continuers]

theorem sum_endsBefore_comma (rest : List Token) :
    (Phrase.chain .sum).EndsBefore (.comma :: rest) := by
  rw [endsBefore_cons]
  simp [Phrase.continuers]

theorem primary_endsBefore (rest : List Token) : Phrase.primary.EndsBefore rest := by
  simp [Phrase.EndsBefore, Phrase.continuers]

theorem power_not_endsBefore_caret (rest : List Token) :
    ¬ Phrase.power.EndsBefore (.caret :: rest) := by
  rw [endsBefore_cons]
  simp [Phrase.continuers]

/-! ### How a phrase starts -/

/-- The lexemes with which a primary expression starts. -/
def startsPrimary : Token → Bool
  | .number _ => true
  | .word _ => true
  | .opening => true
  | _ => false

theorem primary_starts (d : Derivation .primary) :
    ∃ t rest, d.yield = t :: rest ∧ startsPrimary t = true := by
  cases d <;> exact ⟨_, _, rfl, rfl⟩

theorem power_starts (d : Derivation .power) :
    ∃ t rest, d.yield = t :: rest ∧ startsPrimary t = true := by
  cases d with
  | bare base => exact primary_starts base
  | raised base exponent =>
      obtain ⟨t, rest, hyield, ht⟩ := primary_starts base
      exact ⟨t, rest ++ .caret :: exponent.yield, by simp [Derivation.yield, hyield], ht⟩

end Expression

end Reckoner
