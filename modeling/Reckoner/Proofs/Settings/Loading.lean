/-
What a stored document says of each setting.

A setting is taken from the last member of its name if that has a fit value, and is as for a new
user otherwise.  Nothing else of the document matters to it: no member of another name, fit or
not, known or not, and not the order of the members.  So it is the same to go through the settings
and look each of them up, or to go through the members in any order, take those that are fit and
pass over the others.
-/
import Reckoner.Proofs.Json.Grammar
import Reckoner.Proofs.Settings.Field

namespace Reckoner

/-! ### The last member of a name -/

namespace Json

variable {members before after : List (String × Json)} {name other : String} {value : Json}

/-- A member is the last one of its name. -/
def IsLast (members : List (String × Json)) (name : String) (value : Json) : Prop :=
  ∃ before after, members = before ++ (name, value) :: after ∧ ∀ m ∈ after, m.1 ≠ name

theorem lastMember?_eq_some : lastMember? members name = some value ↔ IsLast members name value := by
  rw [lastMember?, Option.map_eq_some_iff]
  constructor
  · rintro ⟨⟨name', value'⟩, hfind, rfl⟩
    obtain ⟨hname, after, before, hsplit, hafter⟩ := List.find?_eq_some_iff_append.mp hfind
    obtain rfl : name' = name := by simpa using hname
    refine ⟨before.reverse, after.reverse, ?_, ?_⟩
    · rw [← List.reverse_reverse members, hsplit]
      simp
    · intro m hm
      simpa using hafter m (List.mem_reverse.mp hm)
  · rintro ⟨before, after, rfl, hafter⟩
    refine ⟨(name, value), ?_, rfl⟩
    refine List.find?_eq_some_iff_append.mpr ⟨by simp, after.reverse, before.reverse, by simp, ?_⟩
    intro m hm
    simpa using hafter m (List.mem_reverse.mp hm)

theorem lastMember?_append (before after : List (String × Json)) (name : String) :
    lastMember? (before ++ after) name = (lastMember? after name).or (lastMember? before name) := by
  simp only [lastMember?, List.reverse_append, List.find?_append]
  cases after.reverse.find? (·.1 == name) <;> rfl

/-- A member counts if it has the name and no later one has. -/
theorem lastMember?_cons (other : String) (value : Json) (members : List (String × Json))
    (name : String) :
    lastMember? ((other, value) :: members) name =
      (lastMember? members name).or (if other = name then some value else none) := by
  rw [← List.singleton_append, lastMember?_append]
  by_cases h : other = name
  · simp [lastMember?, h]
  · simp [lastMember?, h]

theorem lastMember?_cons_of_ne (h : other ≠ name) (value : Json)
    (members : List (String × Json)) :
    lastMember? ((other, value) :: members) name = lastMember? members name := by
  rw [lastMember?_cons, if_neg h, Option.or_none]

/-- A member of another name does not matter. -/
theorem lastMember?_insert_of_ne (h : other ≠ name) (before after : List (String × Json))
    (value : Json) :
    lastMember? (before ++ (other, value) :: after) name = lastMember? (before ++ after) name := by
  rw [lastMember?_append, lastMember?_append, lastMember?_cons_of_ne h]

theorem lastMember?_eq_none (h : name ∉ members.map Prod.fst) : lastMember? members name = none := by
  rw [Option.eq_none_iff_forall_ne_some]
  intro value hvalue
  obtain ⟨before, after, rfl, -⟩ := lastMember?_eq_some.mp hvalue
  simp at h

theorem exists_lastMember? (h : name ∈ members.map Prod.fst) :
    ∃ value, lastMember? members name = some value := by
  cases hlast : lastMember? members name with
  | some value => exact ⟨value, rfl⟩
  | none =>
      obtain ⟨m, hm, hname⟩ := List.mem_map.mp h
      rw [lastMember?, Option.map_eq_none_iff] at hlast
      have hne := List.find?_eq_none.mp hlast m (List.mem_reverse.mpr hm)
      simp [hname] at hne

/-- Where no name is repeated every member is the last one of its name. -/
theorem isLast_iff_mem (h : (members.map Prod.fst).Nodup) :
    IsLast members name value ↔ (name, value) ∈ members := by
  constructor
  · rintro ⟨before, after, rfl, -⟩
    simp
  · intro hmem
    obtain ⟨before, after, rfl⟩ := List.append_of_mem hmem
    refine ⟨before, after, rfl, ?_⟩
    rw [List.map_append, List.map_cons, List.nodup_append, List.nodup_cons] at h
    intro m hm hname
    exact h.2.1.1 (List.mem_map.mpr ⟨m, hm, hname⟩)

/-- The members of an object in some order, without those that a later one replaces. -/
structure Represents (entries members : List (String × Json)) : Prop where
  nodup : (entries.map Prod.fst).Nodup
  mem_iff : ∀ name value, (name, value) ∈ entries ↔ IsLast members name value

theorem Represents.lastMember?_eq {entries : List (String × Json)} (h : Represents entries members)
    (name : String) : lastMember? entries name = lastMember? members name := by
  refine Option.ext fun value => ?_
  rw [lastMember?_eq_some, lastMember?_eq_some, isLast_iff_mem h.nodup, h.mem_iff]

theorem represents_of_lastMember?_eq {entries : List (String × Json)}
    (hnodup : (entries.map Prod.fst).Nodup)
    (h : ∀ name, lastMember? entries name = lastMember? members name) :
    Represents entries members := by
  refine ⟨hnodup, fun name value => ?_⟩
  rw [← isLast_iff_mem hnodup, ← lastMember?_eq_some, ← lastMember?_eq_some, h]

/-- Every object can be represented so. -/
theorem exists_represents (members : List (String × Json)) :
    ∃ entries, Represents entries members := by
  induction members with
  | nil => exact ⟨[], represents_of_lastMember?_eq List.nodup_nil fun _ => rfl⟩
  | cons m members ih =>
      obtain ⟨entries, hentries⟩ := ih
      obtain ⟨other, value⟩ := m
      by_cases hother : other ∈ entries.map Prod.fst
      · -- A later member replaces this one.
        refine ⟨entries, represents_of_lastMember?_eq hentries.nodup fun name => ?_⟩
        rw [lastMember?_cons, ← hentries.lastMember?_eq]
        by_cases hname : other = name
        · subst hname
          obtain ⟨found, hfound⟩ := exists_lastMember? hother
          rw [hfound, Option.some_or]
        · rw [if_neg hname, Option.or_none]
      · refine ⟨(other, value) :: entries, represents_of_lastMember?_eq ?_ fun name => ?_⟩
        · exact List.nodup_cons.mpr ⟨hother, hentries.nodup⟩
        · rw [lastMember?_cons, lastMember?_cons, hentries.lastMember?_eq]

theorem lastMember?_of_perm {members' : List (String × Json)} (h : members.Perm members')
    (hnodup : (members.map Prod.fst).Nodup) (name : String) :
    lastMember? members name = lastMember? members' name := by
  refine Option.ext fun value => ?_
  rw [lastMember?_eq_some, lastMember?_eq_some, isLast_iff_mem hnodup,
    isLast_iff_mem ((h.map Prod.fst).nodup_iff.mp hnodup), h.mem_iff]

end Json

namespace Settings

open Json (lastMember? IsLast Represents)

variable {s : Settings} {k k' : SettingKey} {members : List (String × Json)}

/-! ### Member by member -/

/-- The settings after a member of a document was gone over: the value is taken if the name is that
of a setting and the value is fit for it. -/
def absorb (s : Settings) (m : String × Json) : Settings :=
  match SettingKey.ofName? m.1 with
  | some k => (s.replace? k m.2).getD s
  | none => s

theorem get_absorb_self (s : Settings) (k : SettingKey) (value : Json) :
    (s.absorb (k.name, value)).get k = (accepted? value k).getD (s.get k) := by
  rw [absorb, SettingKey.ofName?_name]
  show ((s.replace? k value).getD s).get k = _
  rw [replace?_eq]
  cases accepted? value k with
  | none => rfl
  | some v => exact get_put_self s k v

/-- Only the setting that a member names can differ after it. -/
theorem get_absorb_of_ne {m : String × Json} (h : m.1 ≠ k.name) (s : Settings) :
    (s.absorb m).get k = s.get k := by
  rw [absorb]
  cases hfound : SettingKey.ofName? m.1 with
  | none => rfl
  | some k' =>
      have hne : k ≠ k' := by
        rintro rfl
        exact h (SettingKey.name_of_ofName? hfound).symm
      show ((s.replace? k' m.2).getD s).get k = _
      rw [replace?_eq]
      cases accepted? m.2 k' with
      | none => rfl
      | some v => exact get_put_of_ne hne s v

/-- What the members of a document make of a setting, whatever it was before. -/
theorem get_foldl_absorb (k : SettingKey) :
    ∀ (members : List (String × Json)) (s : Settings), (members.map Prod.fst).Nodup →
      (members.foldl absorb s).get k =
        ((lastMember? members k.name).bind (accepted? · k)).getD (s.get k) := by
  intro members
  induction members with
  | nil =>
      intro s _
      rfl
  | cons m members ih =>
      intro s hnodup
      obtain ⟨name, value⟩ := m
      rw [List.map_cons, List.nodup_cons] at hnodup
      obtain ⟨hnew, hnodup⟩ := hnodup
      rw [List.foldl_cons, ih _ hnodup]
      by_cases hname : name = k.name
      · -- The setting is named here, and by no later member.
        subst hname
        rw [Json.lastMember?_cons, Json.lastMember?_eq_none hnew, if_pos rfl]
        exact get_absorb_self s k value
      · rw [Json.lastMember?_cons_of_ne hname, get_absorb_of_ne hname]

/-! ### Setting by setting -/

theorem take_eq_absorb (members : List (String × Json)) (s : Settings) (k : SettingKey) :
    take members s k =
      ((lastMember? members k.name).map fun value => s.absorb (k.name, value)).getD s := by
  rw [take]
  cases lastMember? members k.name with
  | none => rfl
  | some value => simp only [Option.map_some, Option.getD_some, absorb, SettingKey.ofName?_name]

theorem get_take_self (members : List (String × Json)) (s : Settings) (k : SettingKey) :
    (take members s k).get k =
      ((lastMember? members k.name).bind (accepted? · k)).getD (s.get k) := by
  rw [take_eq_absorb]
  cases lastMember? members k.name with
  | none => rfl
  | some value => exact get_absorb_self s k value

theorem get_take_of_ne (h : k' ≠ k) (members : List (String × Json)) (s : Settings) :
    (take members s k').get k = s.get k := by
  have hname : k'.name ≠ k.name := fun heq => h (SettingKey.name_injective heq)
  rw [take_eq_absorb]
  cases lastMember? members k'.name with
  | none => rfl
  | some value => exact get_absorb_of_ne hname s

/-- Settings that are not gone through stay as they were. -/
theorem get_foldl_take_of_notMem (members : List (String × Json)) (k : SettingKey) :
    ∀ (keys : List SettingKey) (s : Settings), k ∉ keys →
      (keys.foldl (take members) s).get k = s.get k := by
  intro keys
  induction keys with
  | nil =>
      intro s _
      rfl
  | cons k' keys ih =>
      intro s hk
      rw [List.mem_cons, not_or] at hk
      rw [List.foldl_cons, ih _ hk.2, get_take_of_ne (Ne.symm hk.1)]

/-- What a document says of a setting. -/
theorem get_ofJson (members : List (String × Json)) (k : SettingKey) :
    (ofJson (.object members)).get k =
      ((lastMember? members k.name).bind (accepted? · k)).getD (initial.get k) := by
  have hmem : k ∈ SettingKey.all := by cases k <;> decide
  have hnodup : SettingKey.all.Nodup := by decide
  rw [ofJson]
  obtain ⟨before, after, hall⟩ := List.append_of_mem hmem
  rw [hall, List.nodup_middle, List.nodup_cons, List.mem_append, not_or] at hnodup
  obtain ⟨⟨hbefore, hafter⟩, -⟩ := hnodup
  rw [hall, List.foldl_append, List.foldl_cons, get_foldl_take_of_notMem _ _ _ _ hafter,
    get_take_self, get_foldl_take_of_notMem _ _ _ _ hbefore]

/-- To go through the members comes to the same as to go through the settings. -/
theorem foldl_absorb_eq_ofJson {entries : List (String × Json)} (h : Represents entries members) :
    entries.foldl absorb initial = ofJson (.object members) := by
  refine eq_of_get fun k => ?_
  rw [get_foldl_absorb k entries initial h.nodup, h.lastMember?_eq, get_ofJson]

/-- Two documents say the same of a setting if its last member is the same in both. -/
theorem get_ofJson_congr {members' : List (String × Json)}
    (h : lastMember? members k.name = lastMember? members' k.name) :
    (ofJson (.object members)).get k = (ofJson (.object members')).get k := by
  rw [get_ofJson, get_ofJson, h]

theorem get_ofJson_of_fits {value : Json} {v : k.Value} (hlast : IsLast members k.name value)
    (hfits : Fits value k v) : (ofJson (.object members)).get k = v := by
  rw [get_ofJson, Json.lastMember?_eq_some.mpr hlast]
  show (accepted? value k).getD _ = v
  rw [accepted?_eq_some.mpr hfits, Option.getD_some]

theorem get_ofJson_of_not_fits
    (h : ∀ value v, IsLast members k.name value → ¬ Fits value k v) :
    (ofJson (.object members)).get k = initial.get k := by
  rw [get_ofJson]
  cases hlast : lastMember? members k.name with
  | none => rfl
  | some value =>
      have hnone : accepted? value k = none :=
        accepted?_eq_none.mpr fun v => h value v (Json.lastMember?_eq_some.mp hlast)
      show (accepted? value k).getD _ = _
      rw [hnone, Option.getD_none]

end Settings

/-! ### Files -/

namespace Disk

open Settings
open Json (IsLast Represents)

/-- What is loaded is what the text in the file says, if there is a text. -/
theorem loadSettings_eq (d : Disk) (p : FilePath) :
    d.loadSettings p = ((d.text? p).bind Json.read?).elim .initial .ofJson := by
  rw [loadSettings, text?]
  cases d.content? p with
  | none => rfl
  | some content =>
      show ofContent (some content) = ((String.fromUTF8? content).bind Json.read?).elim _ _
      rw [ofContent]
      cases String.fromUTF8? content with
      | none => rfl
      | some text =>
          show ofText text = (Json.read? text).elim _ _
          rw [ofText]
          cases Json.read? text with
          | none => rfl
          | some document => rfl

/--
**A document is loaded setting by setting.**  A document that is no object holds the settings of a
new user.  Of an object each setting is what its last member of that name stands for, if the value
is fit, and else as for a new user; it stays the same whatever other members there are, and those
of unknown names do not matter at all, nor does the order of members whose names differ.  The same
comes of going through the members in any order, of which those that are repeated count as the
last one of them, and taking one after the other where it is fit.

A file holds what its text says if that is read as a document, and else, if there is no text or if
it is no JSON, the settings of a new user.
-/
theorem loaded_field_by_field :
    (∀ document : Json, (∀ members, document ≠ .object members) → ofJson document = initial) ∧
    (∀ (members : List (String × Json)) (k : SettingKey),
      (∀ value v, IsLast members k.name value → Fits value k v →
        (ofJson (.object members)).get k = v) ∧
      ((∀ value v, IsLast members k.name value → ¬ Fits value k v) →
        (ofJson (.object members)).get k = initial.get k)) ∧
    (∀ (before after : List (String × Json)) (other : String) (value : Json),
      (∀ k : SettingKey, other ≠ k.name →
        (ofJson (.object (before ++ (other, value) :: after))).get k =
          (ofJson (.object (before ++ after))).get k) ∧
      ((∀ k : SettingKey, other ≠ k.name) →
        ofJson (.object (before ++ (other, value) :: after)) =
          ofJson (.object (before ++ after)))) ∧
    (∀ members members' : List (String × Json), members.Perm members' →
      (members.map Prod.fst).Nodup → ofJson (.object members) = ofJson (.object members')) ∧
    (∀ members : List (String × Json), (∃ entries, Represents entries members) ∧
      ∀ entries, Represents entries members →
        entries.foldl absorb initial = ofJson (.object members)) ∧
    ∀ (d : Disk) (p : FilePath),
      (∀ text document, d.text? p = some text → Json.read? text = some document →
        d.loadSettings p = ofJson document) ∧
      ((∀ text, d.text? p = some text → Json.read? text = none ∨ ¬ Json.IsDocument text) →
        d.loadSettings p = initial) := by
  refine ⟨?_, ?_, ?_, ?_, ?_, ?_⟩
  · intro document h
    cases document with
    | object members => exact absurd rfl (h members)
    | null | bool b | number n | text s | array xs => rfl
  · intro members k
    exact ⟨fun value v hlast hfits => get_ofJson_of_fits hlast hfits, get_ofJson_of_not_fits⟩
  · intro before after other value
    have hother : ∀ k : SettingKey, other ≠ k.name →
        (ofJson (.object (before ++ (other, value) :: after))).get k =
          (ofJson (.object (before ++ after))).get k :=
      fun k h => get_ofJson_congr (Json.lastMember?_insert_of_ne h before after value)
    exact ⟨hother, fun hunknown => eq_of_get fun k => hother k (hunknown k)⟩
  · intro members members' hperm hnodup
    exact eq_of_get fun k => get_ofJson_congr (Json.lastMember?_of_perm hperm hnodup k.name)
  · intro members
    exact ⟨Json.exists_represents members, fun entries => foldl_absorb_eq_ofJson⟩
  · intro d p
    constructor
    · intro text document htext hread
      rw [loadSettings_eq, htext, Option.bind_some, hread]
      rfl
    · intro h
      rw [loadSettings_eq]
      cases htext : d.text? p with
      | none => rfl
      | some text =>
          have hread : Json.read? text = none := by
            rcases h text htext with hnone | hno
            · exact hnone
            · exact Option.eq_none_iff_forall_ne_some.mpr fun x hx =>
                hno (Json.isDocument_of_read? hx)
          rw [Option.bind_some, hread]
          rfl

end Disk

end Reckoner
