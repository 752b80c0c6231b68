/-
The grammar of expressions is unambiguous.

Two derivations of one phrase, each followed by something that does not continue it, are
the same derivation once the lexemes agree, and so is what follows.  The induction is on
one of them; the first lexeme decides which production the other one used, and where
productions share their start, what follows decides it.
-/
import Reckoner.Proofs.Expression.Grammar

namespace Reckoner

/-! ### Names of functions -/

/-- A function is found by its name. -/
theorem MathFunction.ofName?_name (f : MathFunction) : ofName? f.name = some f := by
  cases f <;> rfl

theorem MathFunction.name_injective {f g : MathFunction} (h : f.name = g.name) : f = g := by
  have hf := ofName?_name f
  rw [h, ofName?_name g] at hf
  exact (Option.some.inj hf).symm

/-- No function is called like the variable or a constant. -/
theorem MathFunction.name_ne (f : MathFunction) : f.name ≠ "x" ∧ f.name ≠ "pi" ∧ f.name ≠ "e" := by
  cases f <;> decide

namespace Expression

/-! ### A sign does not start a power -/

theorem power_not_sign (d : Derivation .power) {t : Token} (ht : startsPrimary t = false)
    {rest rest' : List Token} : d.yield ++ rest ≠ t :: rest' := by
  obtain ⟨t', tail, hyield, ht'⟩ := power_starts d
  intro h
  rw [hyield, List.cons_append] at h
  rw [(List.cons.inj h).1, ht] at ht'
  cases ht'

/-! ### A call does not start with another word than its function's name -/

theorem call_not_word {f : MathFunction} {count : Nat} (fits : count ∈ f.argumentCounts)
    (args : Arguments count) {name : String} (h : f.name ≠ name) {rest rest' : List Token} :
    (Derivation.call f fits args).yield ++ rest ≠ .word name :: rest' := by
  intro heq
  simp only [Derivation.yield, List.cons_append, List.cons.injEq, Token.word.injEq] at heq
  exact h heq.1

/-! ### Productions of a chain -/

theorem Derivation.eq_chain {level : Level} (d : Derivation (.chain level)) :
    ∃ first links, d = .chain first links := by
  cases d with
  | chain first links => exact ⟨first, links, rfl⟩

theorem Links.eq_stop_or_link {level : Level} (links : Links level) :
    links = .stop ∨ ∃ t op, ∃ joins : Joins level t op, ∃ operand rest,
      links = .link joins operand rest := by
  cases links with
  | stop => exact Or.inl rfl
  | link joins operand rest => exact Or.inr ⟨_, _, joins, operand, rest, rfl⟩

/-! ### The induction -/

mutual

/-- What is derived determines the derivation, and where it ends. -/
theorem Derivation.unique : ∀ {phrase : Phrase} (d d' : Derivation phrase)
    {rest rest' : List Token}, phrase.EndsBefore rest → phrase.EndsBefore rest' →
    d.yield ++ rest = d'.yield ++ rest' → d = d' ∧ rest = rest'
  | _, .chain first links, d', _, _, hrest, hrest', h => by
      obtain ⟨first', links', rfl⟩ := d'.eq_chain
      simp only [Derivation.yield, List.append_assoc] at h
      obtain ⟨rfl, hlinks⟩ := first.unique first' (links_endsBefore links hrest)
        (links_endsBefore links' hrest') h
      obtain ⟨rfl, htail⟩ := links.unique links' hrest hrest' hlinks
      exact ⟨rfl, htail⟩
  | _, .plus inner, d', _, _, hrest, hrest', h => by
      cases d' with
      | plus inner' =>
          obtain ⟨rfl, htail⟩ := inner.unique inner' hrest hrest' (List.cons.inj h).2
          exact ⟨rfl, htail⟩
      | minus inner' => simp [Derivation.yield] at h
      | unsigned inner' => exact absurd h.symm (power_not_sign inner' rfl)
  | _, .minus inner, d', _, _, hrest, hrest', h => by
      cases d' with
      | plus inner' => simp [Derivation.yield] at h
      | minus inner' =>
          obtain ⟨rfl, htail⟩ := inner.unique inner' hrest hrest' (List.cons.inj h).2
          exact ⟨rfl, htail⟩
      | unsigned inner' => exact absurd h.symm (power_not_sign inner' rfl)
  | _, .unsigned inner, d', _, _, hrest, hrest', h => by
      cases d' with
      | plus inner' => exact absurd h (power_not_sign inner rfl)
      | minus inner' => exact absurd h (power_not_sign inner rfl)
      | unsigned inner' =>
          obtain ⟨rfl, htail⟩ := inner.unique inner' hrest hrest' h
          exact ⟨rfl, htail⟩
  -- A primary expression ends by itself, so both have the same base; then a caret decides.
  | _, .bare base, d', _, _, hrest, hrest', h => by
      cases d' with
      | bare base' =>
          obtain ⟨rfl, htail⟩ := base.unique base' (primary_endsBefore _) (primary_endsBefore _) h
          exact ⟨rfl, htail⟩
      | raised base' exponent' =>
          simp only [Derivation.yield, List.append_assoc, List.cons_append] at h
          obtain ⟨-, htail⟩ := base.unique base' (primary_endsBefore _) (primary_endsBefore _) h
          rw [htail] at hrest
          exact absurd hrest (power_not_endsBefore_caret _)
  | _, .raised base exponent, d', _, _, hrest, hrest', h => by
      cases d' with
      | bare base' =>
          simp only [Derivation.yield, List.append_assoc, List.cons_append] at h
          obtain ⟨-, htail⟩ := base.unique base' (primary_endsBefore _) (primary_endsBefore _) h
          rw [← htail] at hrest'
          exact absurd hrest' (power_not_endsBefore_caret _)
      | raised base' exponent' =>
          simp only [Derivation.yield, List.append_assoc, List.cons_append] at h
          obtain ⟨rfl, htail⟩ := base.unique base' (primary_endsBefore _) (primary_endsBefore _) h
          obtain ⟨rfl, hend⟩ := exponent.unique exponent' hrest hrest' (List.cons.inj htail).2
          exact ⟨rfl, hend⟩
  | _, .number v, d', _, _, hrest, hrest', h => by
      cases d' <;> simp_all [Derivation.yield]
  | _, .unknown, d', _, _, hrest, hrest', h => by
      cases d' with
      | call f' fits' args' => exact absurd h.symm (call_not_word fits' args' f'.name_ne.1)
      | _ => simp_all [Derivation.yield]
  | _, .pi, d', _, _, hrest, hrest', h => by
      cases d' with
      | call f' fits' args' => exact absurd h.symm (call_not_word fits' args' f'.name_ne.2.1)
      | _ => simp_all [Derivation.yield]
  | _, .e, d', _, _, hrest, hrest', h => by
      cases d' with
      | call f' fits' args' => exact absurd h.symm (call_not_word fits' args' f'.name_ne.2.2)
      | _ => simp_all [Derivation.yield]
  | _, .call f fits args, d', _, _, hrest, hrest', h => by
      cases d' with
      | unknown => exact absurd h (call_not_word fits args f.name_ne.1)
      | pi => exact absurd h (call_not_word fits args f.name_ne.2.1)
      | e => exact absurd h (call_not_word fits args f.name_ne.2.2)
      | call f' fits' args' =>
          simp only [Derivation.yield, List.cons_append, List.append_assoc, List.nil_append,
            List.cons.injEq, Token.word.injEq, true_and] at h
          have hf := MathFunction.name_injective h.1
          obtain ⟨hcount, hargs, htail⟩ := args.unique args' h.2
          subst hf hcount
          rw [eq_of_heq hargs]
          exact ⟨rfl, htail⟩
      | _ => simp [Derivation.yield] at h
  | _, .group inner, d', _, _, hrest, hrest', h => by
      cases d' with
      | group inner' =>
          simp only [Derivation.yield, List.cons_append, List.append_assoc, List.nil_append] at h
          obtain ⟨rfl, htail⟩ := inner.unique inner' (sum_endsBefore_closing _)
            (sum_endsBefore_closing _) (List.cons.inj h).2
          exact ⟨rfl, (List.cons.inj htail).2⟩
      | _ => simp [Derivation.yield] at h

/-- The links of a chain are determined by their lexemes, and so is where they end. -/
theorem Links.unique : ∀ {level : Level} (links links' : Links level) {rest rest' : List Token},
    (Phrase.chain level).EndsBefore rest → (Phrase.chain level).EndsBefore rest' →
    links.yield ++ rest = links'.yield ++ rest' → links = links' ∧ rest = rest'
  | _, .stop, links', _, _, hrest, hrest', h => by
      rcases links'.eq_stop_or_link with rfl | ⟨t, op, joins', operand', links', rfl⟩
      · exact ⟨rfl, h⟩
      · simp only [Links.yield, List.nil_append, List.cons_append] at h
        rw [h, endsBefore_cons] at hrest
        exact absurd joins'.continues hrest
  | _, .link joins operand links, links', _, _, hrest, hrest', h => by
      rcases links'.eq_stop_or_link with rfl | ⟨t, op, joins', operand', links', rfl⟩
      · simp only [Links.yield, List.nil_append, List.cons_append] at h
        rw [← h, endsBefore_cons] at hrest'
        exact absurd joins.continues hrest'
      · simp only [Links.yield, List.cons_append, List.append_assoc, List.cons.injEq] at h
        obtain ⟨rfl, h⟩ := h
        obtain rfl := joins.unique joins'
        obtain ⟨rfl, hlinks⟩ := operand.unique operand' (links_endsBefore links hrest)
          (links_endsBefore links' hrest') h
        obtain ⟨rfl, htail⟩ := links.unique links' hrest hrest' hlinks
        exact ⟨rfl, htail⟩

/-- Arguments up to the closing parenthesis are determined by their lexemes. -/
theorem Arguments.unique : ∀ {count count' : Nat} (args : Arguments count)
    (args' : Arguments count') {rest rest' : List Token},
    args.yield ++ .closing :: rest = args'.yield ++ .closing :: rest' →
    count = count' ∧ HEq args args' ∧ rest = rest'
  | _, _, .last arg, args', _, _, h => by
      cases args' with
      | last arg' =>
          obtain ⟨rfl, htail⟩ := arg.unique arg' (sum_endsBefore_closing _)
            (sum_endsBefore_closing _) h
          exact ⟨rfl, HEq.rfl, (List.cons.inj htail).2⟩
      | more arg' args' =>
          simp only [Arguments.yield, List.append_assoc, List.cons_append] at h
          obtain ⟨-, htail⟩ := arg.unique arg' (sum_endsBefore_closing _)
            (sum_endsBefore_comma _) h
          simp at htail
  | _, _, .more arg args, args', _, _, h => by
      cases args' with
      | last arg' =>
          simp only [Arguments.yield, List.append_assoc, List.cons_append] at h
          obtain ⟨-, htail⟩ := arg.unique arg' (sum_endsBefore_comma _)
            (sum_endsBefore_closing _) h
          simp at htail
      | more arg' args' =>
          simp only [Arguments.yield, List.append_assoc, List.cons_append] at h
          obtain ⟨rfl, htail⟩ := arg.unique arg' (sum_endsBefore_comma _)
            (sum_endsBefore_comma _) h
          obtain ⟨rfl, hargs, hend⟩ := args.unique args' (List.cons.inj htail).2
          rw [eq_of_heq hargs]
          exact ⟨rfl, HEq.rfl, hend⟩

end

end Expression

end Reckoner
