/-
The grammar of decimal numerals.

    numeral  := sign? mantissa exponent?
    mantissa := digit+ | digit* '.' digit*    (with at least one digit)
    exponent := ('e' | 'E') sign? digit+

What the reader takes for a numeral is said here without it, part by part and with the
value of each part.  Every part is read up to a character with which it cannot go on, so a
part is read with any rest that starts otherwise.
-/
import Reckoner.Proofs.Decimal.Reading

namespace Reckoner.DecimalNumeral

/-! ### The parts of a numeral -/

/-- The text of a sign, and whether it is a minus sign. -/
inductive IsSign : List Char → Bool → Prop
  | nothing : IsSign [] false
  | plus : IsSign ['+'] false
  | minus : IsSign ['-'] true

/-- Digits with at most one point among them, and those before and after it. -/
inductive IsMantissa : List Char → List Char → List Char → Prop
  | whole {ds : List Char} (ne_nil : ds ≠ []) (digits : ∀ c ∈ ds, c.isDigit = true) :
      IsMantissa ds ds []
  | pointed {ws fs : List Char} (ne_nil : ws ≠ [] ∨ fs ≠ []) (whole : ∀ c ∈ ws, c.isDigit = true)
      (fraction : ∀ c ∈ fs, c.isDigit = true) : IsMantissa (ws ++ '.' :: fs) ws fs

/-- The text of an exponent, if there is one, and its value. -/
inductive IsExponent : List Char → ℤ → Prop
  | nothing : IsExponent [] 0
  | power {letter : Char} {sign ds : List Char} {negative : Bool}
      (letter_eq : letter = 'e' ∨ letter = 'E') (isSign : IsSign sign negative) (ne_nil : ds ≠ [])
      (digits : ∀ c ∈ ds, c.isDigit = true) :
      IsExponent (letter :: (sign ++ ds)) (if negative then -(natOf ds : ℤ) else natOf ds)

variable {cs rest sign mantissa exponent whole fraction : List Char} {negative : Bool} {e : ℤ}

/-! ### Where the parts start -/

theorem isDigit_or_point_of_isMantissa (h : IsMantissa mantissa whole fraction) :
    ∀ c ∈ mantissa, c.isDigit = true ∨ c = '.' := by
  intro c hc
  cases h with
  | whole _ digits => exact .inl (digits c hc)
  | pointed _ hwhole hfraction =>
      rcases List.mem_append.mp hc with hc | hc
      · exact .inl (hwhole c hc)
      · rcases List.mem_cons.mp hc with rfl | hc
        · exact .inr rfl
        · exact .inl (hfraction c hc)

theorem IsMantissa.ne_nil (h : IsMantissa mantissa whole fraction) : mantissa ≠ [] := by
  cases h with
  | whole ne_nil _ => exact ne_nil
  | pointed _ _ _ => simp

theorem ne_sign_of_isMantissa (h : IsMantissa mantissa whole fraction) :
    ∀ c ∈ mantissa, c ≠ '+' ∧ c ≠ '-' := by
  intro c hc
  rcases isDigit_or_point_of_isMantissa h c hc with hdigit | rfl
  · exact SignedNumeral.ne_sign_of_isDigit hdigit
  · decide

/-- An exponent starts with a letter, with which no digits go on. -/
theorem head_of_isExponent (h : IsExponent exponent e) :
    ∀ c, exponent.head? = some c → c.isDigit = false ∧ c ≠ '.' := by
  intro c hc
  cases h with
  | nothing => cases hc
  | power letter_eq _ _ _ =>
      cases hc
      rcases letter_eq with rfl | rfl <;> decide

theorem mem_of_isSign (h : IsSign sign negative) : ∀ c ∈ sign, c ∈ ['+', '-'] := by
  intro c hc
  cases h with
  | nothing => cases hc
  | plus => simpa using .inl (List.mem_singleton.mp hc)
  | minus => simpa using .inr (List.mem_singleton.mp hc)

/-! ### Reading the parts -/

theorem readSign_of_isSign (h : IsSign sign negative)
    (hrest : ∀ c, rest.head? = some c → c ≠ '+' ∧ c ≠ '-') :
    readSign (sign ++ rest) = (negative, rest) := by
  cases h with
  | plus => rfl
  | minus => rfl
  | nothing =>
      cases rest with
      | nil => rfl
      | cons c rest =>
          obtain ⟨hplus, hminus⟩ := hrest c rfl
          simp [readSign, hplus, hminus]

theorem exists_isSign (cs : List Char) :
    ∃ sign, IsSign sign (readSign cs).1 ∧ cs = sign ++ (readSign cs).2 := by
  unfold readSign
  split
  · exact ⟨_, .plus, rfl⟩
  · exact ⟨_, .minus, rfl⟩
  · exact ⟨_, .nothing, rfl⟩

theorem readDigits?_of_isMantissa (h : IsMantissa mantissa whole fraction)
    (hrest : ∀ c, rest.head? = some c → c.isDigit = false ∧ c ≠ '.') :
    readDigits? (mantissa ++ rest) = some (whole, fraction, rest) := by
  have hdigit : ∀ c, rest.head? = some c → c.isDigit = false := fun c hc => (hrest c hc).1
  unfold readDigits?
  cases h with
  | whole ne_nil digits =>
      rw [takeWhile_append_rest digits hdigit, dropWhile_append_rest digits hdigit]
      split
      · exact absurd rfl (hrest '.' rfl).2
      · simp [ne_nil]
  | pointed ne_nil hwhole hfraction =>
      have hpoint : ∀ c, ('.' :: (fraction ++ rest)).head? = some c → c.isDigit = false := by
        rintro c ⟨⟩
        rfl
      rw [List.append_assoc, List.cons_append, takeWhile_append_rest hwhole hpoint,
        dropWhile_append_rest hwhole hpoint]
      simp only [takeWhile_append_rest hfraction hdigit, dropWhile_append_rest hfraction hdigit]
      rw [if_neg]
      rcases ne_nil with hne | hne <;> simp [hne]

theorem isMantissa_of_readDigits? (h : readDigits? cs = some (whole, fraction, rest)) :
    ∃ mantissa, IsMantissa mantissa whole fraction ∧ cs = mantissa ++ rest := by
  have hdigits : ∀ ds : List Char, ∀ c ∈ ds.takeWhile Char.isDigit, c.isDigit = true :=
    fun ds c hc => List.mem_takeWhile_imp hc
  have hsplit := List.takeWhile_append_dropWhile (p := Char.isDigit) (l := cs)
  unfold readDigits? at h
  split at h
  · rename_i rest' hdrop
    dsimp only at h
    split at h
    · cases h
    · rename_i hne
      cases h
      rw [Bool.and_eq_true, not_and_or, List.isEmpty_iff, List.isEmpty_iff] at hne
      refine ⟨_, .pointed hne (hdigits cs) (hdigits rest'), ?_⟩
      · rw [List.append_assoc, List.cons_append, List.takeWhile_append_dropWhile, ← hdrop, hsplit]
  · dsimp only at h
    split at h
    · cases h
    · rename_i hne
      cases h
      exact ⟨_, .whole (by simpa using hne) (hdigits cs), hsplit.symm⟩

theorem readExponent?_of_isExponent (h : IsExponent exponent e) (hne : exponent ≠ []) :
    readExponent? exponent = some (e, []) := by
  cases h with
  | nothing => exact absurd rfl hne
  | @power letter sign ds negative letter_eq isSign ne_nil digits =>
      have hhead : ∀ c, ds.head? = some c → c ≠ '+' ∧ c ≠ '-' := fun c hc =>
        SignedNumeral.ne_sign_of_isDigit (digits c (List.mem_of_mem_head? hc))
      have htake : ds.takeWhile Char.isDigit = ds := List.takeWhile_eq_self_iff.mpr digits
      have hdrop : ds.dropWhile Char.isDigit = [] := List.dropWhile_eq_nil_iff.mpr digits
      rw [readExponent?, if_pos letter_eq, readSign_of_isSign isSign hhead]
      simp only [htake, hdrop]
      rw [if_neg (by simpa using ne_nil)]

theorem isExponent_of_readExponent? (h : readExponent? cs = some (e, rest)) :
    ∃ exponent, IsExponent exponent e ∧ cs = exponent ++ rest := by
  unfold readExponent? at h
  split at h
  · rename_i c cs'
    split at h
    · rename_i hletter
      dsimp only at h
      split at h
      · cases h
      · rename_i hne
        cases h
        obtain ⟨sign, hsign, hcs⟩ := exists_isSign cs'
        refine ⟨_, .power hletter hsign (by simpa using hne) ?_, ?_⟩
        · exact fun c hc => List.mem_takeWhile_imp hc
        · rw [List.cons_append, List.append_assoc, List.takeWhile_append_dropWhile, ← hcs]
    · cases h
  · cases h

/-! ### Whole numerals -/

/-- A text is read as a numeral exactly if it is one, part by part. -/
theorem read?_eq_some {n : DecimalNumeral} :
    read? cs = some n ↔ ∃ sign mantissa exponent, cs = sign ++ (mantissa ++ exponent) ∧
      IsSign sign n.negative ∧ IsMantissa mantissa n.whole n.fraction ∧
      IsExponent exponent n.exponent := by
  constructor
  · intro h
    unfold read? at h
    split at h
    · rename_i n' hprefix
      cases h
      unfold readPrefix? at hprefix
      obtain ⟨sign, hsign, hcs⟩ := exists_isSign cs
      generalize readSign cs = signed at hprefix hsign hcs
      obtain ⟨negative, unsigned⟩ := signed
      obtain ⟨⟨whole, fraction, rest⟩, hdigits, hrest⟩ := Option.bind_eq_some_iff.mp hprefix
      obtain ⟨mantissa, hmantissa, rfl⟩ := isMantissa_of_readDigits? hdigits
      dsimp only at hrest
      split at hrest
      · rename_i e rest' hread
        cases hrest
        obtain ⟨exponent, hexponent, rfl⟩ := isExponent_of_readExponent? hread
        rw [List.append_nil] at hcs
        exact ⟨sign, mantissa, exponent, hcs, hsign, hmantissa, hexponent⟩
      · cases hrest
        exact ⟨sign, mantissa, [], hcs, hsign, hmantissa, .nothing⟩
    · cases h
  · rintro ⟨sign, mantissa, exponent, rfl, hsign, hmantissa, hexponent⟩
    have hhead : ∀ c, (mantissa ++ exponent).head? = some c → c ≠ '+' ∧ c ≠ '-' := by
      intro c hc
      rw [List.head?_append_of_ne_nil _ hmantissa.ne_nil] at hc
      exact ne_sign_of_isMantissa hmantissa c (List.mem_of_mem_head? hc)
    have hprefix : readPrefix? (sign ++ (mantissa ++ exponent)) = some (n, []) := by
      rw [readPrefix?, readSign_of_isSign hsign hhead]
      dsimp only
      rw [readDigits?_of_isMantissa hmantissa (head_of_isExponent hexponent)]
      by_cases hnone : exponent = []
      · subst hnone
        obtain ⟨negative, whole, fraction, e⟩ := n
        cases hexponent
        rfl
      · simp only [Option.bind_eq_bind, Option.bind_some,
          readExponent?_of_isExponent hexponent hnone]
    rw [read?, hprefix]

/-- A text is a numeral, and the number it denotes. -/
inductive IsNumeral : List Char → ℚ → Prop
  | parts {sign mantissa exponent whole fraction : List Char} {negative : Bool} {e : ℤ}
      (isSign : IsSign sign negative) (isMantissa : IsMantissa mantissa whole fraction)
      (isExponent : IsExponent exponent e) :
      IsNumeral (sign ++ (mantissa ++ exponent)) (number ⟨negative, whole, fraction, e⟩)

theorem isNumeral_iff_read? {x : ℚ} : IsNumeral cs x ↔ ∃ n, read? cs = some n ∧ n.number = x := by
  constructor
  · rintro ⟨isSign, isMantissa, isExponent⟩
    exact ⟨_, read?_eq_some.mpr ⟨_, _, _, rfl, isSign, isMantissa, isExponent⟩, rfl⟩
  · rintro ⟨n, hread, rfl⟩
    obtain ⟨sign, mantissa, exponent, rfl, isSign, isMantissa, isExponent⟩ := read?_eq_some.mp hread
    exact .parts isSign isMantissa isExponent

/-- The characters of a numeral are few. -/
theorem IsNumeral.isDigit_or_mem {x : ℚ} (h : IsNumeral cs x) :
    ∀ c ∈ cs, c.isDigit = true ∨ c ∈ ['+', '-', '.', 'e', 'E'] := by
  have hsign : ∀ {sign : List Char} {negative : Bool}, IsSign sign negative →
      ∀ c ∈ sign, c ∈ ['+', '-', '.', 'e', 'E'] := fun isSign c hc =>
    List.mem_append_left ['.', 'e', 'E'] (mem_of_isSign isSign c hc)
  obtain ⟨isSign, isMantissa, isExponent⟩ := h
  intro c hc
  rcases List.mem_append.mp hc with hc | hc
  · exact .inr (hsign isSign c hc)
  · rcases List.mem_append.mp hc with hc | hc
    · rcases isDigit_or_point_of_isMantissa isMantissa c hc with hdigit | rfl
      · exact .inl hdigit
      · exact .inr (by decide)
    · cases isExponent with
      | nothing => cases hc
      | power letter_eq isSign _ digits =>
          rcases List.mem_cons.mp hc with rfl | hc
          · rcases letter_eq with rfl | rfl <;> exact .inr (by decide)
          · rcases List.mem_append.mp hc with hc | hc
            · exact .inr (hsign isSign c hc)
            · exact .inl (digits c hc)

/-! ### Spans -/

theorem exists_isSign_spanSign (cs : List Char) :
    ∃ negative, IsSign (spanSign cs).1 negative ∧ (spanSign cs).1 ++ (spanSign cs).2 = cs := by
  unfold spanSign
  split
  · exact ⟨_, .plus, rfl⟩
  · exact ⟨_, .minus, rfl⟩
  · exact ⟨_, .nothing, rfl⟩

theorem spanSign_of_isSign (h : IsSign sign negative)
    (hrest : ∀ c, rest.head? = some c → c ≠ '+' ∧ c ≠ '-') :
    spanSign (sign ++ rest) = (sign, rest) := by
  cases h with
  | plus => rfl
  | minus => rfl
  | nothing =>
      cases rest with
      | nil => rfl
      | cons c rest =>
          obtain ⟨hplus, hminus⟩ := hrest c rfl
          simp [spanSign, hplus, hminus]

/-- Cutting off an exponent loses nothing. -/
theorem append_spanExponent (isDigit : Char → Bool) (cs : List Char) :
    (spanExponent isDigit cs).1 ++ (spanExponent isDigit cs).2 = cs := by
  unfold spanExponent
  split
  · rfl
  · rename_i c rest
    obtain ⟨negative, -, hrest⟩ := exists_isSign_spanSign rest
    dsimp only
    split
    · rw [List.cons_append, List.cons_append, List.append_assoc,
        List.takeWhile_append_dropWhile, hrest]
    · rfl

/-- What is cut off as an exponent is one, and all of the text is there. -/
theorem exists_isExponent_spanExponent (cs : List Char) :
    (∃ e, IsExponent (spanExponent Char.isDigit cs).1 e) ∧
      (spanExponent Char.isDigit cs).1 ++ (spanExponent Char.isDigit cs).2 = cs := by
  refine ⟨?_, append_spanExponent Char.isDigit cs⟩
  unfold spanExponent
  split
  · exact ⟨0, .nothing⟩
  · rename_i c rest
    obtain ⟨negative, hsign, -⟩ := exists_isSign_spanSign rest
    dsimp only
    split
    · rename_i h
      exact ⟨_, .power h.1 hsign h.2 fun d hd => List.mem_takeWhile_imp hd⟩
    · exact ⟨0, .nothing⟩

/-- No longer exponent starts the text. -/
theorem length_le_spanExponent (h : IsExponent exponent e) (rest : List Char) :
    exponent.length ≤ (spanExponent Char.isDigit (exponent ++ rest)).1.length := by
  cases h with
  | nothing => exact Nat.zero_le _
  | @power letter sign ds negative letter_eq isSign ne_nil digits =>
      have hhead : ∀ c, (ds ++ rest).head? = some c → c ≠ '+' ∧ c ≠ '-' := by
        intro c hc
        rw [List.head?_append_of_ne_nil _ ne_nil] at hc
        exact SignedNumeral.ne_sign_of_isDigit (digits c (List.mem_of_mem_head? hc))
      have htake : (ds ++ rest).takeWhile Char.isDigit = ds ++ rest.takeWhile Char.isDigit :=
        List.takeWhile_append_of_pos digits
      rw [List.cons_append, List.append_assoc, spanExponent, spanSign_of_isSign isSign hhead]
      dsimp only
      rw [htake, if_pos ⟨letter_eq, by simp [ne_nil]⟩]
      simp only [List.cons_append, List.length_cons, List.length_append]
      omega

end Reckoner.DecimalNumeral
