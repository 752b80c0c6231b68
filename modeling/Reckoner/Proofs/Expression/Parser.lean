/-
What the reader of expressions accepts.

A successful run spans lexemes, counts operators and notes whether the variable was among
the lexemes; from the spans of its parts a derivation is put together, by induction on the
depth for `signed` and on the bounds of the two loops for chains and arguments.  With the other
direction and unambiguity this settles for every text whether it is an expression, and which.
-/
import Reckoner.Proofs.Expression.Reading
import Reckoner.Proofs.Outcome

namespace Reckoner.Expression

open Outcome

/-! ### Spans -/

/-- From one input to another, lexemes were read, operators counted and the variable noted. -/
structure Spans (yield : List Token) (operators : Nat) (input out : Input) : Prop where
  tokens : input.tokens = yield ++ out.tokens
  operators : out.operators = input.operators + operators
  /-- Within the limit the count stays within it. -/
  limit : input.operators ≤ maxOperators → out.operators ≤ maxOperators
  usesVariable : out.usesVariable = (input.usesVariable || mentionsVariable yield)

theorem Spans.nothing (input : Input) : Spans [] 0 input input :=
  ⟨rfl, rfl, id, (Bool.or_false _).symm⟩

theorem Spans.token {t : Token} (ht : t ≠ .word "x") (rest : List Token) (n : Nat) (b : Bool) :
    Spans [t] 0 ⟨t :: rest, n, b⟩ ⟨rest, n, b⟩ :=
  ⟨rfl, rfl, id, by simp [ht]⟩

/-- The variable is the one lexeme that is noted. -/
theorem Spans.unknown (rest : List Token) (n : Nat) (b : Bool) :
    Spans [.word "x"] 0 ⟨.word "x" :: rest, n, b⟩ ⟨rest, n, true⟩ :=
  ⟨rfl, rfl, id, by simp⟩

/-- Spans are put together end to end. -/
theorem Spans.append {yield yield' : List Token} {n n' : Nat} {a b c : Input}
    (h : Spans yield n a b) (h' : Spans yield' n' b c) : Spans (yield ++ yield') (n + n') a c := by
  refine ⟨?_, ?_, fun ha => h'.limit (h.limit ha), ?_⟩
  · rw [h.tokens, h'.tokens, List.append_assoc]
  · rw [h'.operators, h.operators, Nat.add_assoc]
  · rw [h'.usesVariable, h.usesVariable, mentionsVariable_append, Bool.or_assoc]

theorem Spans.count {input out : Input} (h : countOperator input = .ok out) :
    Spans [] 1 input out := by
  unfold countOperator at h
  split at h
  · rename_i hlt
    cases h
    exact ⟨rfl, rfl, fun _ => hlt, (Bool.or_false _).symm⟩
  · cases h

/-! ### Each reader follows a derivation -/

/-- What a reader accepts is derived, with `signed` nested no deeper than the given depth. -/
def Sound (reader : Reader) (phrase : Phrase) (depth : Nat) : Prop :=
  ∀ {input out : Input} {e : Expression}, reader input = .ok (e, out) →
    ∃ d : Derivation phrase, d.tree = e ∧ d.nesting ≤ depth ∧ Spans d.yield d.operators input out

theorem chainRest_sound {level : Level} {operand : Reader} {depth : Nat}
    (hoperand : Sound operand level.operand depth) :
    ∀ (steps : Nat) {lhs e : Expression} {input out : Input},
      chainRest level.op? operand steps lhs input = .ok (e, out) →
      ∃ links : Links level, links.join lhs = e ∧ links.nesting ≤ depth ∧
        Spans links.yield links.operators input out := by
  intro steps
  induction steps with
  | zero =>
      intro lhs e input out h
      cases h
  | succ steps ih =>
      intro lhs e input out h
      obtain ⟨tokens, n, b⟩ := input
      unfold chainRest at h
      cases tokens with
      | nil =>
          cases h
          exact ⟨.stop, rfl, Nat.zero_le _, .nothing _⟩
      | cons t rest =>
          cases hop : level.op? t with
          | none =>
              simp only [hop] at h
              cases h
              exact ⟨.stop, rfl, Nat.zero_le _, .nothing _⟩
          | some op =>
              simp only [hop] at h
              obtain ⟨⟨rhs, input₁⟩, hrhs, h⟩ := bind_eq_ok.mp h
              obtain ⟨input₂, hcount, h⟩ := bind_eq_ok.mp h
              obtain ⟨d, rfl, hd, hspan⟩ := hoperand hrhs
              obtain ⟨links, hjoin, hlinks, hrest⟩ := ih h
              refine ⟨.link (joins_iff.mpr hop) d links, hjoin, Nat.max_le.mpr ⟨hd, hlinks⟩, ?_⟩
              have ht := (joins_iff.mpr hop).ne_word "x"
              have := (((Spans.token ht rest n b).append hspan).append (.count hcount)).append hrest
              simpa [Links.yield, Links.operators, Nat.add_assoc] using this

theorem chain_sound {level : Level} {operand : Reader} {depth : Nat}
    (hoperand : Sound operand level.operand depth) :
    Sound (chain level.op? operand) (.chain level) depth := by
  intro input out e h
  unfold chain at h
  obtain ⟨⟨lhs, input₁⟩, hlhs, h⟩ := bind_eq_ok.mp h
  obtain ⟨d, rfl, hd, hspan⟩ := hoperand hlhs
  obtain ⟨links, hjoin, hlinks, hrest⟩ := chainRest_sound hoperand _ h
  exact ⟨.chain d links, hjoin, Nat.max_le.mpr ⟨hd, hlinks⟩, hspan.append hrest⟩

theorem sum_sound {signed : Reader} {depth : Nat} (hsigned : Sound signed .signed depth) :
    Sound (sum signed) (.chain .sum) depth :=
  @chain_sound .sum _ _ (@chain_sound .product _ _ hsigned)

theorem argumentsRest_sound {f : MathFunction} {signed : Reader} {depth : Nat}
    (hsigned : Sound signed .signed depth) :
    ∀ (steps : Nat) {before es : List Expression} {input out : Input},
      argumentsRest f signed steps before input = .ok (es, out) →
      ∃ count, ∃ args : Arguments count, es = before.reverse ++ args.trees ∧
        args.nesting ≤ depth ∧ Spans (args.yield ++ [.closing]) args.operators input out := by
  intro steps
  induction steps with
  | zero =>
      intro before es input out h
      cases h
  | succ steps ih =>
      intro before es input out h
      unfold argumentsRest at h
      obtain ⟨⟨arg, ⟨tokens, n, b⟩⟩, harg, h⟩ := bind_eq_ok.mp h
      obtain ⟨d, rfl, hd, hspan⟩ := sum_sound hsigned harg
      -- After an argument only a comma or the closing parenthesis goes on.
      match tokens, h with
      | .comma :: rest, h =>
          obtain ⟨count, args, rfl, hargs, hrest⟩ := ih h
          refine ⟨count + 1, .more d args, by simp [Arguments.trees],
            Nat.max_le.mpr ⟨hd, hargs⟩, ?_⟩
          have := (hspan.append (.token (by simp) rest n b)).append hrest
          simpa [Arguments.yield, Arguments.operators] using this
      | .closing :: rest, h =>
          cases h
          exact ⟨1, .last d, by simp [Arguments.trees], hd,
            hspan.append (.token (by simp) rest n b)⟩

/-- A call with its arguments is accepted if they are as many as the function takes. -/
theorem finish_ok {f : MathFunction} {args : List Expression} {input out : Input} {e : Expression}
    (h : callOf.finish f args input = .ok (e, out)) :
    args.length ∈ f.argumentCounts ∧ e = .call f args ∧ out = input := by
  unfold callOf.finish at h
  split at h
  · rename_i hfits
    cases h
    exact ⟨MathFunction.accepts_iff.mp hfits, rfl, rfl⟩
  · cases h

theorem callOf_sound {f : MathFunction} {signed : Reader} {depth : Nat}
    (hsigned : Sound signed .signed depth) {tokens : List Token} {n : Nat} {b : Bool} {out : Input}
    {e : Expression} (h : callOf f signed ⟨tokens, n, b⟩ = .ok (e, out)) :
    ∃ d : Derivation .primary, d.tree = e ∧ d.nesting ≤ depth ∧
      Spans d.yield d.operators ⟨.word f.name :: tokens, n, b⟩ out := by
  unfold callOf at h
  split at h
  · -- No function is called without arguments.
    exact absurd (finish_ok h).1 (by cases f <;> decide)
  · rename_i rest _ heq
    obtain rfl : tokens = _ := heq
    obtain ⟨⟨es, input⟩, hargs, h⟩ := bind_eq_ok.mp h
    obtain ⟨hfits, rfl, rfl⟩ := finish_ok h
    obtain ⟨count, args, rfl, hd, hspan⟩ := argumentsRest_sound hsigned _ hargs
    rw [List.reverse_nil, List.nil_append, args.length_trees] at hfits
    refine ⟨.call f hfits args, rfl, hd, ?_⟩
    have hname : Token.word f.name ≠ .word "x" := by simp [f.name_ne.1]
    have := ((Spans.token hname (.opening :: rest) n b).append
      (.token (by simp) rest n b)).append hspan
    simpa [Derivation.yield, Derivation.operators] using this
  · cases h

theorem word_sound {name : String} {signed : Reader} {depth : Nat}
    (hsigned : Sound signed .signed depth) {tokens : List Token} {n : Nat} {b : Bool} {out : Input}
    {e : Expression} (h : word name signed ⟨tokens, n, b⟩ = .ok (e, out)) :
    ∃ d : Derivation .primary, d.tree = e ∧ d.nesting ≤ depth ∧
      Spans d.yield d.operators ⟨.word name :: tokens, n, b⟩ out := by
  unfold word at h
  split at h
  · rename_i hname
    cases h
    exact ⟨.unknown, rfl, Nat.zero_le _, hname ▸ .unknown tokens n b⟩
  · split at h
    · rename_i hname
      cases h
      exact ⟨.pi, rfl, Nat.zero_le _, hname ▸ .token (by simp) tokens n b⟩
    · split at h
      · rename_i hname
        cases h
        exact ⟨.e, rfl, Nat.zero_le _, hname ▸ .token (by simp) tokens n b⟩
      · cases hf : MathFunction.ofName? name with
        | none =>
            simp only [hf] at h
            cases h
        | some f =>
            simp only [hf] at h
            rw [← MathFunction.name_of_ofName? hf]
            exact callOf_sound hsigned h

theorem primary_sound {signed : Reader} {depth : Nat} (hsigned : Sound signed .signed depth) :
    Sound (primary signed) .primary depth := by
  intro input out e h
  obtain ⟨tokens, n, b⟩ := input
  match tokens, h with
  | .number v :: rest, h =>
      cases h
      exact ⟨.number v, rfl, Nat.zero_le _, .token (by simp) rest n b⟩
  | .word name :: rest, h => exact word_sound hsigned h
  | .opening :: rest, h =>
      obtain ⟨⟨inner, ⟨tokens, m, b'⟩⟩, hinner, h⟩ := bind_eq_ok.mp h
      obtain ⟨d, rfl, hd, hspan⟩ := sum_sound hsigned hinner
      match tokens, h with
      | .closing :: tail, h =>
          cases h
          refine ⟨.group d, rfl, hd, ?_⟩
          have := ((Spans.token (by simp : Token.opening ≠ _) rest n b).append hspan).append
            (.token (by simp : Token.closing ≠ _) tail m b')
          simpa [Derivation.yield, Derivation.operators] using this

theorem power_sound {signed : Reader} {depth : Nat} (hsigned : Sound signed .signed depth) :
    Sound (power signed) .power depth := by
  intro input out e h
  unfold power at h
  obtain ⟨⟨base, ⟨tokens, n, b⟩⟩, hbase, h⟩ := bind_eq_ok.mp h
  obtain ⟨d, rfl, hd, hspan⟩ := primary_sound hsigned hbase
  simp only at h
  split at h
  · rename_i rest
    obtain ⟨⟨exponent, input⟩, hexponent, h⟩ := bind_eq_ok.mp h
    cases h
    obtain ⟨d', rfl, hd', hspan'⟩ := hsigned hexponent
    refine ⟨.raised d d', rfl, Nat.max_le.mpr ⟨hd, hd'⟩, ?_⟩
    have := (hspan.append (.token (by simp) rest n b)).append hspan'
    simpa [Derivation.yield, Derivation.operators] using this
  · cases h
    exact ⟨.bare d, rfl, hd, hspan⟩

/-- Each level of `signed` costs one of the depth. -/
theorem signed_sound : ∀ depth : Nat, Sound (signed depth) .signed depth := by
  intro depth
  induction depth with
  | zero =>
      intro input out e h
      cases h
  | succ depth ih =>
      intro input out e h
      obtain ⟨tokens, n, b⟩ := input
      unfold signed at h
      split at h
      · rename_i rest heq
        obtain rfl : tokens = _ := heq
        obtain ⟨⟨inner, input⟩, hinner, h⟩ := bind_eq_ok.mp h
        cases h
        obtain ⟨d, rfl, hd, hspan⟩ := ih hinner
        refine ⟨.minus d, rfl, Nat.succ_le_succ hd, ?_⟩
        simpa [Derivation.yield, Derivation.operators] using
          (Spans.token (by simp) rest n b).append hspan
      · rename_i rest heq
        obtain rfl : tokens = _ := heq
        obtain ⟨d, rfl, hd, hspan⟩ := ih h
        refine ⟨.plus d, rfl, Nat.succ_le_succ hd, ?_⟩
        simpa [Derivation.yield, Derivation.operators] using
          (Spans.token (by simp) rest n b).append hspan
      · obtain ⟨d, rfl, hd, hspan⟩ := power_sound ih h
        exact ⟨.unsigned d, rfl, Nat.succ_le_succ hd, hspan⟩

/-! ### Whole texts -/

/-- Lexemes are read when they are derived within both limits, and the variable has been met if it
is one of them. -/
theorem parsedOfTokens_eq_ok {tokens : List Token} {p : Parsed} :
    parsedOfTokens tokens = .ok p ↔
      p.usesVariable = mentionsVariable tokens ∧
        ∃ d : Derivation (.chain .sum), d.yield = tokens ∧ d.nesting ≤ maxDepth ∧
          d.operators ≤ maxOperators ∧ d.tree = p.root := by
  constructor
  · intro h
    unfold parsedOfTokens at h
    split at h
    · cases h
    · obtain ⟨⟨e', ⟨rest, n, b⟩⟩, hsum, h⟩ := bind_eq_ok.mp h
      obtain ⟨d, rfl, hd, hspan⟩ := sum_sound (signed_sound maxDepth) hsum
      cases rest with
      | nil =>
          cases h
          have hn : n = d.operators := by simpa using hspan.operators
          have hyield : d.yield = tokens := by simpa using hspan.tokens.symm
          refine ⟨by simpa [hyield] using hspan.usesVariable, d, hyield, hd, ?_, rfl⟩
          rw [← hn]
          exact hspan.limit (Nat.zero_le _)
      | cons t rest => cases h
  · obtain ⟨root, b⟩ := p
    rintro ⟨hb, d, rfl, hd, hn, rfl⟩
    obtain rfl : b = _ := hb
    obtain ⟨t, rest, hyield, -⟩ := d.yield_eq_cons
    have hread := d.reader_yield (b := false) hd (by omega : 0 + d.operators ≤ maxOperators)
      (endsBefore_nil _)
    rw [List.append_nil, reader_sum] at hread
    rw [parsedOfTokens, if_neg (by simp [hyield]), hread]
    rfl

/-- Lexemes are an expression when they are derived within both limits. -/
theorem ofTokens_eq_ok {tokens : List Token} {e : Expression} :
    ofTokens tokens = .ok e ↔
      ∃ d : Derivation (.chain .sum), d.yield = tokens ∧ d.nesting ≤ maxDepth ∧
        d.operators ≤ maxOperators ∧ d.tree = e := by
  rw [ofTokens, map_eq_ok]
  constructor
  · rintro ⟨p, hp, rfl⟩
    exact (parsedOfTokens_eq_ok.mp hp).2
  · intro h
    exact ⟨⟨e, mentionsVariable tokens⟩, parsedOfTokens_eq_ok.mpr ⟨rfl, h⟩, rfl⟩

/-- A sequence of lexemes has one derivation at most. -/
theorem yield_injective {d d' : Derivation (.chain .sum)} (h : d.yield = d'.yield) : d = d' := by
  refine (d.unique d' (endsBefore_nil _) (endsBefore_nil _) ?_).1
  rw [h]

/--
**The texts that are expressions, and the expressions they are.**  A text is read as `e`
exactly if its lexemes have a derivation that stands for `e`, nests `signed` at most 128
deep and chains at most 1024 operators; there is no second derivation of the same lexemes;
and every other text is refused.
-/
theorem parse_eq_ok_iff_derivation (text : String) :
    (∀ e, parse text = .ok e ↔ ∃ tokens, Token.ofText text = .ok tokens ∧
      ∃ d : Derivation (.chain .sum), d.yield = tokens ∧ d.nesting ≤ 128 ∧ d.operators ≤ 1024 ∧
        d.tree = e) ∧
    (∀ d d' : Derivation (.chain .sum), d.yield = d'.yield ↔ d = d') ∧
    ((∃ cause, parse text = .error cause) ↔ ¬ ∃ tokens, Token.ofText text = .ok tokens ∧
      ∃ d : Derivation (.chain .sum), d.yield = tokens ∧ d.nesting ≤ 128 ∧
        d.operators ≤ 1024) := by
  have hread : ∀ e, parse text = .ok e ↔ ∃ tokens, Token.ofText text = .ok tokens ∧
      ∃ d : Derivation (.chain .sum), d.yield = tokens ∧ d.nesting ≤ 128 ∧ d.operators ≤ 1024 ∧
        d.tree = e := by
    intro e
    rw [parse]
    cases Token.ofText text with
    | error cause => simp
    | ok tokens =>
        simp only [Except.ok.injEq, exists_eq_left']
        exact ofTokens_eq_ok
  refine ⟨hread, fun d d' => ⟨yield_injective, fun h => by rw [h]⟩, ?_⟩
  constructor
  · rintro ⟨cause, hcause⟩ ⟨tokens, htokens, d, hyield, hd, hn⟩
    rw [(hread d.tree).mpr ⟨tokens, htokens, d, hyield, hd, hn, rfl⟩] at hcause
    cases hcause
  · intro hnone
    cases hparse : parse text with
    | error cause => exact ⟨cause, rfl⟩
    | ok e =>
        obtain ⟨tokens, htokens, d, hyield, hd, hn, -⟩ := (hread e).mp hparse
        exact absurd ⟨tokens, htokens, d, hyield, hd, hn⟩ hnone

end Reckoner.Expression
