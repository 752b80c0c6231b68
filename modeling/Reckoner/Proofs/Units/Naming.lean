/-
Which unit a text names.

A unit is looked for in three ways, and the first way that finds one decides.  The order of the
ways does not matter, though: no two labels of a category are spelled alike up to letter case, and
no symbol of a unit is spelled like a label, so no text is found in two ways at two positions.
What a text names can therefore be said without the ways of looking for it.
-/
import Reckoner.Proofs.Text.Blank
import Reckoner.Proofs.Text.Fold
import Reckoner.Proofs.Units.Lookup

namespace Reckoner

/-! ### Symbols -/

/-- A label ends in a symbol in parentheses. -/
def HasSymbol (label symbol : String) : Prop :=
  ∃ before, label.toList = before ++ '(' :: (symbol.toList ++ [')']) ∧ '(' ∉ symbol.toList

theorem takeWhile_ne_append {α : Type} [DecidableEq α] {x : α} {front : List α} (h : x ∉ front)
    (rest : List α) : (front ++ x :: rest).takeWhile (· != x) = front := by
  have hfront : ∀ y ∈ front, (y != x) = true := by
    intro y hy
    rw [bne_iff_ne]
    rintro rfl
    exact h hy
  rw [List.takeWhile_append_of_pos hfront]
  simp

theorem exists_eq_takeWhile_append {α : Type} [DecidableEq α] {x : α} {xs : List α} (h : x ∈ xs) :
    ∃ rest, xs = xs.takeWhile (· != x) ++ x :: rest := by
  induction xs with
  | nil => cases h
  | cons y ys ih =>
      by_cases hy : y = x
      · exact ⟨ys, by simp [hy]⟩
      · obtain ⟨rest, hrest⟩ := ih ((List.mem_cons.mp h).resolve_left (Ne.symm hy))
        refine ⟨rest, ?_⟩
        rw [List.takeWhile_cons, if_pos (by simpa using hy), List.cons_append, ← hrest]

/-- The symbol of a label is what it ends in in parentheses. -/
theorem unitSymbol?_eq_some {label symbol : String} :
    unitSymbol? label = some symbol ↔ HasSymbol label symbol := by
  unfold unitSymbol?
  constructor
  · intro h
    split at h
    · rename_i inner hreverse
      by_cases hopen : '(' ∈ inner
      · rw [if_pos hopen] at h
        have hnot : '(' ∉ inner.takeWhile (· != '(') := by
          intro hmem
          simpa using List.mem_takeWhile_imp hmem
        obtain ⟨rest, hrest⟩ := exists_eq_takeWhile_append hopen
        have hsymbol := Option.some.inj h
        generalize inner.takeWhile (· != '(') = front at hnot hrest hsymbol
        subst hsymbol
        refine ⟨rest.reverse, ?_, by simpa using hnot⟩
        rw [← List.reverse_reverse label.toList, hreverse, hrest]
        simp
      · rw [if_neg hopen] at h
        cases h
    · cases h
  · rintro ⟨before, hlabel, hopen⟩
    have hreverse : label.toList.reverse =
        ')' :: (symbol.toList.reverse ++ '(' :: before.reverse) := by
      rw [hlabel]
      simp
    rw [hreverse]
    simp only [List.mem_append, List.mem_cons, true_or, or_true, if_true]
    rw [takeWhile_ne_append (by simpa using hopen)]
    simp

/-! ### Unique entries -/

/-- A unique entry passes the test, and no other one does. -/
theorem uniqueIdx?_eq_some {α : Type} {test : α → Bool} {xs : List α} {i : Nat} :
    uniqueIdx? test xs = some i ↔
      (∃ x, xs[i]? = some x ∧ test x = true) ∧
        ∀ j y, xs[j]? = some y → test y = true → j = i := by
  unfold uniqueIdx?
  cases hfind : xs.findIdx? test with
  | none =>
      refine iff_of_false nofun ?_
      rintro ⟨⟨x, hx, hpass⟩, -⟩
      have hfail := List.findIdx?_eq_none_iff.mp hfind x (List.mem_of_getElem? hx)
      rw [hpass] at hfail
      cases hfail
  | some k =>
      obtain ⟨hk, hpass, hbefore⟩ := List.findIdx?_eq_some_iff_getElem.mp hfind
      by_cases hany : (xs.drop (k + 1)).any test = true
      · -- Two entries pass.
        refine iff_of_false (by simp [hany]) ?_
        rintro ⟨-, hall⟩
        obtain ⟨y, hy, hpass'⟩ := List.any_eq_true.mp hany
        obtain ⟨j, hj⟩ := List.mem_iff_getElem?.mp hy
        rw [List.getElem?_drop] at hj
        have hfirst := hall k xs[k] (List.getElem?_eq_getElem hk) hpass
        have hsecond := hall (k + 1 + j) y hj hpass'
        omega
      · simp only [if_neg hany, Option.some_inj]
        constructor
        · rintro rfl
          refine ⟨⟨xs[k], List.getElem?_eq_getElem hk, hpass⟩, ?_⟩
          intro j y hj hpass'
          rcases Nat.lt_trichotomy j k with hlt | heq | hgt
          · obtain ⟨hj', rfl⟩ := List.getElem?_eq_some_iff.mp hj
            exact absurd hpass' (hbefore j hlt)
          · exact heq
          · refine absurd (List.any_eq_true.mpr ⟨y, ?_, hpass'⟩) hany
            refine List.mem_iff_getElem?.mpr ⟨j - (k + 1), ?_⟩
            rw [List.getElem?_drop, Nat.add_sub_cancel' hgt, hj]
        · rintro ⟨-, hall⟩
          exact hall k xs[k] (List.getElem?_eq_getElem hk) hpass

/-! ### Labels that can be told apart -/

/-- What stands after the last opening parenthesis of a text, without its last character. -/
def lastParenthesis (cs : List Char) : List Char :=
  ((cs.reverse.drop 1).takeWhile (· != '(')).reverse

theorem HasSymbol.lastParenthesis_eq {label symbol : String} (h : HasSymbol label symbol) :
    lastParenthesis label.toList = symbol.toList := by
  obtain ⟨before, hlabel, hopen⟩ := h
  have hreverse : label.toList.reverse.drop 1 = symbol.toList.reverse ++ '(' :: before.reverse := by
    rw [hlabel]
    simp
  rw [lastParenthesis, hreverse, takeWhile_ne_append (by simpa using hopen), List.reverse_reverse]

/-- Labels are told apart by a text in any letter case, and from each other's symbols. -/
structure ToldApart (labels : List (List Char)) : Prop where
  simple : ∀ cs ∈ labels, cs.all Text.isSimple = true
  /-- No two of them are spelled alike. -/
  nodup : (labels.map (List.map Text.keyChar)).Nodup
  /-- None of them is spelled like a symbol. -/
  no_symbol : ∀ cs ∈ labels, ∀ cs' ∈ labels,
    cs.map Text.keyChar ≠ (lastParenthesis cs').map Text.keyChar

instance (labels : List (List Char)) : Decidable (ToldApart labels) :=
  decidable_of_iff
    ((∀ cs ∈ labels, cs.all Text.isSimple = true) ∧
      (labels.map (List.map Text.keyChar)).Nodup ∧
      ∀ cs ∈ labels, ∀ cs' ∈ labels,
        cs.map Text.keyChar ≠ (lastParenthesis cs').map Text.keyChar)
    ⟨fun ⟨h, h', h''⟩ => ⟨h, h', h''⟩, fun ⟨h, h', h''⟩ => ⟨h, h', h''⟩⟩

namespace Category

theorem toldApart_units (c : Category) : ToldApart (c.units.map String.toList) := by
  revert c
  decide +kernel

/-! ### What a text names -/

/-- A text names a unit if, without the blanks at its ends, it is the unit's label in some letter
case, or if it is the unit's symbol and that of no other unit. -/
def Names (c : Category) (L : Text.LowerCasing) (text : String) (i : Nat) : Prop :=
  ∃ label, c.units[i]? = some label ∧
    (L.lower label.toList = L.lower (Text.trim text).toList ∨
      HasSymbol label (Text.trim text) ∧
        ∀ j label', c.units[j]? = some label' → HasSymbol label' (Text.trim text) → j = i)

section Names

variable {c : Category} {L : Text.LowerCasing} {text label : String} {i j : Nat}

/-- Letter case is compared as the catalog does it. -/
theorem lower_label_eq_iff (hi : c.units[i]? = some label) (query : String) :
    L.lower label.toList = L.lower query.toList ↔ Text.labelKey label = Text.labelKey query := by
  have hmem := List.mem_map_of_mem (f := String.toList) (List.mem_of_getElem? hi)
  exact L.lower_eq_iff (List.all_eq_true.mp (c.toldApart_units.simple _ hmem))

/-- A label in some letter case is no symbol. -/
theorem not_hasSymbol_of_lower_eq {label' query : String} (hi : c.units[i]? = some label)
    (hj : c.units[j]? = some label') (h : Text.labelKey label = Text.labelKey query) :
    ¬ HasSymbol label' query := by
  intro hsymbol
  have hmem := List.mem_map_of_mem (f := String.toList) (List.mem_of_getElem? hi)
  have hmem' := List.mem_map_of_mem (f := String.toList) (List.mem_of_getElem? hj)
  refine c.toldApart_units.no_symbol _ hmem _ hmem' ?_
  rw [hsymbol.lastParenthesis_eq]
  exact h

/-- A text names one unit at most. -/
theorem Names.unique (h : c.Names L text i) (h' : c.Names L text j) : i = j := by
  obtain ⟨label, hi, hlabel⟩ := h
  obtain ⟨label', hj, hlabel'⟩ := h'
  rw [lower_label_eq_iff hi] at hlabel
  rw [lower_label_eq_iff hj] at hlabel'
  rcases hlabel with hlower | ⟨hsymbol, hall⟩
  · rcases hlabel' with hlower' | ⟨hsymbol', -⟩
    · have hsame : Text.labelKey label = Text.labelKey label' := hlower.trans hlower'.symm
      refine (List.getElem?_inj ?_ c.toldApart_units.nodup).mp ?_
      · simpa using (List.getElem?_eq_some_iff.mp hi).1
      · simpa [hi, hj, Text.labelKey] using hsame
    · exact absurd hsymbol' (not_hasSymbol_of_lower_eq hi hj hlower)
  · rcases hlabel' with hlower' | ⟨hsymbol', -⟩
    · exact absurd hsymbol (not_hasSymbol_of_lower_eq hj hi hlower')
    · exact (hall j label' hj hsymbol').symm

/-- A text that is a label in some letter case, between blanks, names the unit of the label. -/
theorem names_of_lower_eq {before variant after : String} (hi : c.units[i]? = some label)
    (hvariant : L.lower label.toList = L.lower variant.toList)
    (hbefore : ∀ x ∈ before.toList, Text.isBlank x = true)
    (hafter : ∀ x ∈ after.toList, Text.isBlank x = true) :
    c.Names L (before ++ variant ++ after) i := by
  have hlower : label.toList.map Text.keyChar = variant.toList.map Text.keyChar :=
    (lower_label_eq_iff hi variant).mp hvariant
  have hlabel := congrArg String.toList (trim_of_mem_units (List.mem_of_getElem? hi))
  rw [Text.trim, String.toList_ofList] at hlabel
  have hhead := Text.head_trimChars label.toList
  have hlast := Text.last_trimChars label.toList
  rw [hlabel] at hhead hlast
  have htrim : Text.trim (before ++ variant ++ after) = variant := by
    rw [Text.trim, String.toList_append, String.toList_append,
      Text.trimChars_append hbefore hafter, String.ofList_toList]
    · refine Text.not_blank_of_map_keyChar ?_ hhead
      rw [← List.head?_map, ← List.head?_map, hlower]
    · refine Text.not_blank_of_map_keyChar ?_ hlast
      rw [← List.getLast?_map, ← List.getLast?_map, hlower]
  exact ⟨label, hi, .inl (htrim.symm ▸ hvariant)⟩

/-! ### The ways of looking for a unit -/

/-- The ways of looking for a unit, in their order: by the label as it is, by a symbol that no other
unit has, and by the label in another letter case. -/
def lookups (c : Category) (query : String) : List (Option Nat) :=
  [c.units.findIdx? (· == query),
    uniqueIdx? (fun label => unitSymbol? label == some query) c.units,
    c.units.findIdx? fun label => Text.labelKey label == Text.labelKey query]

/-- The first way that finds a unit decides. -/
theorem unitIndex?_eq (c : Category) (text : String) :
    c.unitIndex? text = (c.lookups (Text.trim text)).findSome? fun found => found := by
  simp only [unitIndex?, lookups, List.findSome?_cons, List.findSome?_nil]
  cases c.units.findIdx? (· == Text.trim text) with
  | some i => rfl
  | none =>
      cases uniqueIdx? (fun label => unitSymbol? label == some (Text.trim text)) c.units with
      | some i => rfl
      | none =>
          cases c.units.findIdx? fun label =>
              Text.labelKey label == Text.labelKey (Text.trim text) with
          | some i => rfl
          | none => rfl

/-- Each way finds what the text names. -/
theorem names_of_mem_lookups (h : some i ∈ c.lookups (Text.trim text)) : c.Names L text i := by
  simp only [lookups, List.mem_cons, List.not_mem_nil, or_false] at h
  rcases h with h | h | h
  · obtain ⟨hi, hlabel, -⟩ := List.findIdx?_eq_some_iff_getElem.mp h.symm
    refine ⟨c.units[i], List.getElem?_eq_getElem hi, .inl ?_⟩
    rw [beq_iff_eq.mp hlabel]
  · obtain ⟨⟨label, hi, hlabel⟩, hall⟩ := uniqueIdx?_eq_some.mp h.symm
    refine ⟨label, hi, .inr ⟨unitSymbol?_eq_some.mp (beq_iff_eq.mp hlabel), ?_⟩⟩
    intro j label' hj hsymbol
    exact hall j label' hj (beq_iff_eq.mpr (unitSymbol?_eq_some.mpr hsymbol))
  · obtain ⟨hi, hlabel, -⟩ := List.findIdx?_eq_some_iff_getElem.mp h.symm
    have hunit := List.getElem?_eq_getElem hi
    exact ⟨c.units[i], hunit, .inl ((lower_label_eq_iff hunit _).mpr (beq_iff_eq.mp hlabel))⟩

/-- What a text names is found in one of the ways. -/
theorem mem_lookups_of_names (h : c.Names L text i) : some i ∈ c.lookups (Text.trim text) := by
  obtain ⟨label, hi, hlower | ⟨hsymbol, hall⟩⟩ := h
  · -- In any letter case the label is found, if nowhere else then by its letters.
    have hlower' := (lower_label_eq_iff hi (Text.trim text)).mp hlower
    cases hfind : c.units.findIdx? fun label =>
        Text.labelKey label == Text.labelKey (Text.trim text) with
    | none =>
        have hnone := List.findIdx?_eq_none_iff.mp hfind label (List.mem_of_getElem? hi)
        rw [beq_eq_false_iff_ne] at hnone
        exact absurd hlower' hnone
    | some j =>
        have hmem : some j ∈ c.lookups (Text.trim text) := by
          simp [lookups, hfind]
        have hnames : c.Names L text i := ⟨label, hi, .inl hlower⟩
        rwa [hnames.unique (names_of_mem_lookups hmem)]
  · have hunique : uniqueIdx? (fun label => unitSymbol? label == some (Text.trim text)) c.units =
        some i := by
      refine uniqueIdx?_eq_some.mpr ⟨⟨label, hi, ?_⟩, ?_⟩
      · exact beq_iff_eq.mpr (unitSymbol?_eq_some.mpr hsymbol)
      · intro j label' hj hlabel'
        exact hall j label' hj (unitSymbol?_eq_some.mp (beq_iff_eq.mp hlabel'))
    simp [lookups, hunique]

/-- What is found is what the text names. -/
theorem unitIndex?_eq_some_iff_names (L : Text.LowerCasing) :
    c.unitIndex? text = some i ↔ c.Names L text i := by
  rw [unitIndex?_eq]
  constructor
  · intro h
    obtain ⟨found, hmem, hfound⟩ := List.exists_of_findSome?_eq_some h
    obtain rfl : found = some i := hfound
    exact names_of_mem_lookups hmem
  · intro h
    cases hfind : (c.lookups (Text.trim text)).findSome? fun found => found with
    | none => exact absurd (List.findSome?_eq_none_iff.mp hfind _ (mem_lookups_of_names h)) nofun
    | some j =>
        obtain ⟨found, hmem, hfound⟩ := List.exists_of_findSome?_eq_some hfind
        obtain rfl : found = some j := hfound
        rw [h.unique (names_of_mem_lookups hmem)]

theorem unitIndex?_eq_none_iff (L : Text.LowerCasing) :
    c.unitIndex? text = none ↔ ∀ i, ¬ c.Names L text i := by
  rw [Option.eq_none_iff_forall_ne_some]
  exact forall_congr' fun i => not_congr (unitIndex?_eq_some_iff_names L)

end Names

end Category

/-! ### All categories -/

theorem findUnit?_eq_some_iff (L : Text.LowerCasing) {text : String} {c : Category} {i : Nat} :
    findUnit? text = some (c, i) ↔
      c.Names L text i ∧ ∃ before after, Category.all = before ++ c :: after ∧
        ∀ c' ∈ before, ∀ j, ¬ c'.Names L text j := by
  have hnone : ∀ c' : Category,
      (c'.unitIndex? text).map (c', ·) = none ↔ ∀ j, ¬ c'.Names L text j := by
    intro c'
    rw [Option.map_eq_none_iff, Category.unitIndex?_eq_none_iff L]
  rw [findUnit?, List.findSome?_eq_some_iff]
  simp only [hnone]
  constructor
  · rintro ⟨before, c', after, hall, hfound, hbefore⟩
    obtain ⟨j, hj, hpair⟩ := Option.map_eq_some_iff.mp hfound
    obtain ⟨rfl, rfl⟩ := Prod.mk.inj hpair
    exact ⟨(Category.unitIndex?_eq_some_iff_names L).mp hj, before, after, hall, hbefore⟩
  · rintro ⟨hnames, before, after, hall, hbefore⟩
    refine ⟨before, c, after, hall, ?_, hbefore⟩
    rw [(Category.unitIndex?_eq_some_iff_names L).mpr hnames]
    rfl

theorem findUnit?_eq_none_iff (L : Text.LowerCasing) {text : String} :
    findUnit? text = none ↔ ∀ (c : Category) (i : Nat), ¬ c.Names L text i := by
  rw [findUnit?, List.findSome?_eq_none_iff]
  simp only [Option.map_eq_none_iff, Category.unitIndex?_eq_none_iff L]
  exact ⟨fun h c => h c (Category.mem_all c), fun h c _ => h c⟩

/--
**A text names a unit or none.**  In any lower case that Unicode allows, a unit is found exactly if
the text without the blanks at its ends is its label up to letter case, or its symbol and that of
no other unit of the category.  What is found is a unit of the category, and each of the three ways
of looking for it that finds anything finds the same.  So a label in any letter case and between any
blanks finds its own unit.  Among all categories the first one is found, in the order in which they
are shown, that has such a unit, and none only if no category has one.
-/
theorem find_named_unit (L : Text.LowerCasing) :
    (∀ (c : Category) (text : String) (i : Nat),
      (c.unitIndex? text = some i ↔ c.Names L text i) ∧
      (c.unitIndex? text = some i → i < c.units.length) ∧
      c.unitIndex? text = (c.lookups (Text.trim text)).findSome? (fun found => found) ∧
      (some i ∈ c.lookups (Text.trim text) → c.unitIndex? text = some i)) ∧
    (∀ (c : Category) (i : Nat) (label before variant after : String),
      c.units[i]? = some label → L.lower label.toList = L.lower variant.toList →
      (∀ x ∈ before.toList, Text.isBlank x = true) → (∀ x ∈ after.toList, Text.isBlank x = true) →
      c.unitIndex? (before ++ variant ++ after) = some i) ∧
    ∀ text : String,
      (∀ (c : Category) (i : Nat), findUnit? text = some (c, i) ↔
        c.Names L text i ∧ ∃ before after, Category.all = before ++ c :: after ∧
          ∀ c' ∈ before, ∀ j, ¬ c'.Names L text j) ∧
      (findUnit? text = none ↔ ∀ (c : Category) (i : Nat), ¬ c.Names L text i) := by
  refine ⟨?_, ?_, ?_⟩
  · intro c text i
    refine ⟨Category.unitIndex?_eq_some_iff_names L, ?_, c.unitIndex?_eq text, ?_⟩
    · intro h
      obtain ⟨label, hi, -⟩ := (Category.unitIndex?_eq_some_iff_names L).mp h
      exact (List.getElem?_eq_some_iff.mp hi).1
    · intro h
      exact (Category.unitIndex?_eq_some_iff_names L).mpr (Category.names_of_mem_lookups h)
  · intro c i label before variant after hi hvariant hbefore hafter
    exact (Category.unitIndex?_eq_some_iff_names L).mpr
      (Category.names_of_lower_eq hi hvariant hbefore hafter)
  · intro text
    exact ⟨fun c i => findUnit?_eq_some_iff L, findUnit?_eq_none_iff L⟩

/-- A kelvin sign stands for the letter in a label, between blanks of any kind. -/
theorem find_named_unit_kelvin :
    Category.temperature.unitIndex? "\u2003\u212AELVIN (k) " = some 0 := by
  obtain ⟨-, hvariant, -⟩ := find_named_unit .folding
  have hspace : ∀ x ∈ " ".toList, Text.isBlank x = true :=
    List.all_eq_true.mp (by decide +kernel)
  have hwide : ∀ x ∈ "\u2003".toList, Text.isBlank x = true :=
    List.all_eq_true.mp (by decide +kernel)
  exact hvariant .temperature 0 "kelvin (K)" "\u2003" "\u212AELVIN (k)" " " (by decide +kernel)
    (by decide +kernel) hwide hspace

end Reckoner
