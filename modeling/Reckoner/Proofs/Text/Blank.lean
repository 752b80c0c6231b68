/-
Trimming.

A text is what trimming leaves of it between blanks at its two ends, and trimming looks at
nothing but these ends.  No blank is a digit of any script.
-/
import Reckoner.Text.Blank
import Reckoner.Text.DecimalDigit

namespace Reckoner.Text

variable {cs : List Char}

theorem dropWhile_isBlank_eq_self (h : ∀ c, cs.head? = some c → isBlank c = false) :
    cs.dropWhile isBlank = cs := by
  cases cs with
  | nil => rfl
  | cons c cs => rw [List.dropWhile_cons, if_neg (by simp [h c rfl])]

/-- Blanks at the end of a text are trimmed, and nothing else is. -/
theorem trimEnd_append {core blanks : List Char} (hblanks : ∀ c ∈ blanks, isBlank c = true)
    (hlast : ∀ c, core.getLast? = some c → isBlank c = false) : trimEnd (core ++ blanks) = core := by
  have hreverse : ∀ c, core.reverse.head? = some c → isBlank c = false := by
    intro c hc
    exact hlast c (by rw [← List.head?_reverse, hc])
  rw [trimEnd, List.reverse_append, List.dropWhile_append_of_pos (by simpa using hblanks),
    dropWhile_isBlank_eq_self hreverse, List.reverse_reverse]

/-- Blanks at the ends of a text are trimmed, and what is between them is left as it is. -/
theorem trimChars_append {before core after : List Char}
    (hbefore : ∀ c ∈ before, isBlank c = true) (hafter : ∀ c ∈ after, isBlank c = true)
    (hhead : ∀ c, core.head? = some c → isBlank c = false)
    (hlast : ∀ c, core.getLast? = some c → isBlank c = false) :
    trimChars (before ++ core ++ after) = core := by
  have hstart : trimStart (before ++ core ++ after) = (core ++ after).dropWhile isBlank := by
    rw [trimStart, List.append_assoc, List.dropWhile_append_of_pos hbefore]
  rw [trimChars, hstart]
  cases core with
  | nil =>
      have hnil : after.dropWhile isBlank = [] := by
        rw [← List.append_nil after, List.dropWhile_append_of_pos hafter]
        rfl
      rw [List.nil_append, hnil]
      rfl
  | cons c core =>
      have hrest : (c :: core ++ after).dropWhile isBlank = c :: core ++ after :=
        dropWhile_isBlank_eq_self fun d hd => hhead d hd
      rw [hrest, trimEnd_append hafter hlast]

/-- There is nothing to trim where neither end is blank. -/
theorem trimChars_of_ends (hhead : ∀ c, cs.head? = some c → isBlank c = false)
    (hlast : ∀ c, cs.getLast? = some c → isBlank c = false) : trimChars cs = cs := by
  have htrim : trimChars ([] ++ cs ++ []) = cs := trimChars_append (by simp) (by simp) hhead hlast
  rwa [List.nil_append, List.append_nil] at htrim

theorem trimChars_eq_self (h : ∀ c ∈ cs, isBlank c = false) : trimChars cs = cs :=
  trimChars_of_ends (fun c hc => h c (List.mem_of_mem_head? hc))
    (fun c hc => h c (List.mem_of_getLast? hc))

/-! ### What trimming leaves -/

theorem exists_blanks_after (cs : List Char) :
    ∃ blanks, cs = trimEnd cs ++ blanks ∧ ∀ c ∈ blanks, isBlank c = true := by
  refine ⟨(cs.reverse.takeWhile isBlank).reverse, ?_, ?_⟩
  · rw [trimEnd, ← List.reverse_append, List.takeWhile_append_dropWhile, List.reverse_reverse]
  · intro c hc
    exact List.all_eq_true.mp List.all_takeWhile c (List.mem_reverse.mp hc)

/-- What is left at the start of a text is no blank. -/
theorem head_dropWhile_isBlank (cs : List Char) :
    ∀ c, (cs.dropWhile isBlank).head? = some c → isBlank c = false := by
  intro c hc
  have := List.head?_dropWhile_not isBlank cs
  rw [hc] at this
  exact this

theorem last_trimEnd (cs : List Char) :
    ∀ c, (trimEnd cs).getLast? = some c → isBlank c = false := by
  intro c hc
  rw [trimEnd, List.getLast?_reverse] at hc
  exact head_dropWhile_isBlank cs.reverse c hc

theorem last_trimChars (cs : List Char) :
    ∀ c, (trimChars cs).getLast? = some c → isBlank c = false :=
  last_trimEnd (trimStart cs)

theorem head_trimChars (cs : List Char) :
    ∀ c, (trimChars cs).head? = some c → isBlank c = false := by
  intro c hc
  obtain ⟨blanks, hsplit, -⟩ := exists_blanks_after (trimStart cs)
  have hhead := head_dropWhile_isBlank cs
  refine hhead c ?_
  change (trimStart cs).head? = some c
  change (trimEnd (trimStart cs)).head? = some c at hc
  rw [hsplit, List.head?_append, hc]
  rfl

/-- Nothing is left to trim once a text has been trimmed. -/
theorem trim_trim (s : String) : trim (trim s) = trim s := by
  rw [trim, trim, String.toList_ofList, trimChars_of_ends (head_trimChars _) (last_trimChars _)]

/-- What is trimmed is blank. -/
theorem exists_blanks (cs : List Char) :
    ∃ before after, cs = before ++ trimChars cs ++ after ∧
      (∀ c ∈ before, isBlank c = true) ∧ (∀ c ∈ after, isBlank c = true) := by
  obtain ⟨after, hsplit, hafter⟩ := exists_blanks_after (trimStart cs)
  refine ⟨cs.takeWhile isBlank, after, ?_, ?_, hafter⟩
  · rw [trimChars, List.append_assoc, ← hsplit, trimStart, List.takeWhile_append_dropWhile]
  · intro c hc
    exact List.all_eq_true.mp List.all_takeWhile c hc

/-- Trimming sees of a character only whether it is blank. -/
theorem trimChars_map {f : Char → Char} (h : ∀ c, isBlank (f c) = isBlank c) (cs : List Char) :
    trimChars (cs.map f) = (trimChars cs).map f := by
  have hcomp : isBlank ∘ f = isBlank := funext h
  unfold trimChars trimEnd trimStart
  rw [List.dropWhile_map, hcomp, ← List.map_reverse, List.dropWhile_map, hcomp, List.map_reverse]

/-! ### Digits -/

theorem isDecimalDigit_of_isDigit {c : Char} (h : c.isDigit = true) : isDecimalDigit c = true := by
  rw [isDecimalDigit, h, Bool.true_or]

theorem not_isDigit_of_not_isDecimalDigit {c : Char} (h : isDecimalDigit c = false) :
    c.isDigit = false := by
  rw [isDecimalDigit, Bool.or_eq_false_iff] at h
  exact h.1

theorem exists_zero_of_isDecimalDigit {c : Char} (h : isDecimalDigit c = true) :
    ∃ first ∈ zeros, first ≤ c.toNat ∧ c.toNat < first + 10 := by
  rw [isDecimalDigit, Bool.or_eq_true] at h
  rcases h with h | h
  · rw [Char.isDigit, Bool.and_eq_true, decide_eq_true_eq, decide_eq_true_eq] at h
    obtain ⟨hlo, hhi⟩ := h
    exact ⟨0x30, by decide, UInt32.le_iff_toNat_le.mp hlo,
      Nat.lt_succ_of_le (UInt32.le_iff_toNat_le.mp hhi)⟩
  · simpa using h

theorem isBlank_of_isDecimalDigit {c : Char} (h : isDecimalDigit c = true) : isBlank c = false := by
  have hzeros : ∀ first ∈ zeros, ∀ k < 10, isBlank (Char.ofNat (first + k)) = false := by
    decide +kernel
  obtain ⟨first, hfirst, hlo, hhi⟩ := exists_zero_of_isDecimalDigit h
  have hblank := hzeros first hfirst (c.toNat - first) (by omega)
  rwa [Nat.add_sub_cancel' hlo, Char.ofNat_toNat] at hblank

end Reckoner.Text
