/-
Letter case in labels.

Unicode gives every character a lower case of one or more characters, and for a few it depends on
the characters around it.  Labels are made of ASCII and of three signs without case, and no other
character but the kelvin sign has a lower case of such characters alone.  So to compare a text with
a label, it is enough to fold the ASCII letters and the kelvin sign: the two agree then exactly if
they agree in any lower case that Unicode allows.
-/
import Mathlib
import Reckoner.Text.Blank
import Reckoner.Text.Fold

namespace Reckoner.Text

/-! ### Simple characters -/

/-- Whether a character is one of those of which labels are made: an ASCII character, or one of
three signs that have no case. -/
def isSimple (c : Char) : Bool := c.toNat < 128 || c == '°' || c == '²' || c == '³'

/-- What holds of the ASCII characters holds of every character below 128. -/
theorem of_ascii {p : Char → Prop} (h : ∀ n < 128, p (Char.ofNat n)) {c : Char}
    (hc : c.toNat < 128) : p c := by
  have := h c.toNat hc
  rwa [Char.ofNat_toNat] at this

/-- Folding leaves all other characters but one as they are. -/
theorem keyChar_of_not_ascii {c : Char} (hc : ¬ c.toNat < 128) (hkelvin : c ≠ '\u212A') :
    keyChar c = c := by
  rw [keyChar, if_neg hkelvin]
  refine Char.toLower_eq_of_not_isUpper ?_
  intro hupper
  have hle : c.toNat ≤ 'Z'.toNat := UInt32.le_iff_toNat_le.mp (of_decide_eq_true hupper).2
  have hz : 'Z'.toNat = 90 := rfl
  omega

theorem isSimple_keyChar {c : Char} (h : isSimple c = true) : isSimple (keyChar c) = true := by
  by_cases hc : c.toNat < 128
  · exact of_ascii (p := fun c => isSimple (keyChar c) = true) (by decide +kernel) hc
  · by_cases hkelvin : c = '\u212A'
    · rw [hkelvin]
      decide
    · rwa [keyChar_of_not_ascii hc hkelvin]

theorem isBlank_keyChar (c : Char) : isBlank (keyChar c) = isBlank c := by
  by_cases hc : c.toNat < 128
  · exact of_ascii (p := fun c => isBlank (keyChar c) = isBlank c) (by decide +kernel) hc
  · by_cases hkelvin : c = '\u212A'
    · rw [hkelvin]
      decide
    · rw [keyChar_of_not_ascii hc hkelvin]

/-- A blank is folded to a blank, and nothing else is. -/
theorem not_blank_of_map_keyChar {x y : Option Char} (h : x.map keyChar = y.map keyChar)
    (hx : ∀ c, x = some c → isBlank c = false) : ∀ c, y = some c → isBlank c = false := by
  rintro c rfl
  obtain ⟨d, hd, hlower⟩ := Option.map_eq_some_iff.mp h
  rw [← isBlank_keyChar, ← hlower, isBlank_keyChar]
  exact hx d hd

/-! ### Lower case -/

/-- A piece of text can be the lower case of a character.  Simple characters and the kelvin sign
have one lower case, and in the lower case of any other character there is one that is not
simple. -/
def LowersTo (c : Char) (piece : List Char) : Prop :=
  if isSimple c = true ∨ c = '\u212A' then piece = [keyChar c]
  else ∃ d ∈ piece, isSimple d = false

/-- A way to put texts into lower case character by character, where the lower case of a character
may depend on the characters around it. -/
structure LowerCasing where
  lower : List Char → List Char
  /-- The lower case of a text is put together from that of its characters. -/
  pieces : ∀ cs, ∃ ps, List.Forall₂ LowersTo cs ps ∧ lower cs = ps.flatten

theorem lowersTo_keyChar (c : Char) : LowersTo c [keyChar c] := by
  by_cases h : isSimple c = true ∨ c = '\u212A'
  · rw [LowersTo, if_pos h]
  · rw [LowersTo, if_neg h]
    obtain ⟨hsimple, hkelvin⟩ := not_or.mp h
    rw [Bool.not_eq_true] at hsimple
    have hascii : ¬ c.toNat < 128 := by
      intro hc
      simp [isSimple, hc] at hsimple
    rw [keyChar_of_not_ascii hascii hkelvin]
    exact ⟨c, by simp, hsimple⟩

/-- Folding is such a way. -/
def LowerCasing.folding : LowerCasing where
  lower := List.map keyChar
  pieces := by
    intro cs
    induction cs with
    | nil => exact ⟨[], .nil, rfl⟩
    | cons c cs ih =>
        obtain ⟨ps, hps, hflatten⟩ := ih
        refine ⟨[keyChar c] :: ps, .cons (lowersTo_keyChar c) hps, ?_⟩
        rw [List.map_cons, hflatten]
        rfl

/-- Pieces are either those of folding, or some character that is not simple shows in them as well
as in what folding gives. -/
theorem flatten_eq_or {cs : List Char} {ps : List (List Char)} (h : List.Forall₂ LowersTo cs ps) :
    ps.flatten = cs.map keyChar ∨
      (∃ d ∈ ps.flatten, isSimple d = false) ∧ ∃ d ∈ cs.map keyChar, isSimple d = false := by
  induction h with
  | nil => exact .inl rfl
  | @cons c piece cs ps hpiece _ ih =>
      rw [List.flatten_cons, List.map_cons]
      by_cases hc : isSimple c = true ∨ c = '\u212A'
      · rw [LowersTo, if_pos hc] at hpiece
        subst hpiece
        rcases ih with heq | ⟨⟨d, hd, hsimple⟩, ⟨d', hd', hsimple'⟩⟩
        · exact .inl (by rw [heq]; rfl)
        · exact .inr ⟨⟨d, List.mem_append_right _ hd, hsimple⟩,
            ⟨d', List.mem_cons_of_mem _ hd', hsimple'⟩⟩
      · have hfolded := lowersTo_keyChar c
        rw [LowersTo, if_neg hc] at hpiece hfolded
        obtain ⟨d, hd, hsimple⟩ := hpiece
        obtain ⟨d', hd', hsimple'⟩ := hfolded
        rw [List.mem_singleton.mp hd'] at hsimple'
        exact .inr ⟨⟨d, List.mem_append_left _ hd, hsimple⟩,
          ⟨_, List.mem_cons_self, hsimple'⟩⟩

/-- To compare a text with one of simple characters, every way is as good as folding. -/
theorem LowerCasing.lower_eq_iff (L : LowerCasing) {label cs : List Char}
    (hlabel : ∀ c ∈ label, isSimple c = true) :
    L.lower label = L.lower cs ↔ label.map keyChar = cs.map keyChar := by
  have hsimple : ∀ d ∈ label.map keyChar, ¬ isSimple d = false := by
    intro d hd
    obtain ⟨c, hc, rfl⟩ := List.mem_map.mp hd
    simp [isSimple_keyChar (hlabel c hc)]
  obtain ⟨ps, hps, hlower⟩ := L.pieces label
  obtain ⟨ps', hps', hlower'⟩ := L.pieces cs
  have heq : L.lower label = label.map keyChar := by
    rw [hlower]
    refine (flatten_eq_or hps).resolve_right ?_
    rintro ⟨-, d, hd, hd'⟩
    exact hsimple d hd hd'
  rw [heq]
  rcases flatten_eq_or hps' with heq' | ⟨⟨d, hd, hd'⟩, ⟨e, he, he'⟩⟩
  · rw [hlower', heq']
  · rw [← hlower'] at hd
    refine iff_of_false ?_ ?_
    · intro h
      exact hsimple d (h ▸ hd) hd'
    · intro h
      exact hsimple e (h ▸ he) he'

end Reckoner.Text
