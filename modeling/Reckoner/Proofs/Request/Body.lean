/-
What a request makes of the members of its body.

    object := '{' blank* '}' | '{' member (',' member)* '}', with blanks around each member

A body is read in one pass that puts each member into the slot of its field, and what is missing at
the end is filled in.  `values?` says the same without an order: each field by itself looks for the
members with its name.  The two agree since no two fields have one name, so that a step for a member
is a step for each field, and the pass falls apart into a pass for each field.
-/
import Reckoner.Proofs.Request.Values

namespace Reckoner

open Json (AreBlanks IsText IsValue skipBlanks)
open JsonNumeral (EndsBefore endsBefore_mark)
open Outcome (toOption_map toOption_eq_some toOption_eq_none)

/-! ### Members -/

namespace Request

/-- A member of an object, by the texts of its name and of its value. -/
structure Member where
  name : List Char
  value : List Char
  deriving DecidableEq

namespace Member

/-- The name of a member; a text with half of a surrogate pair is none. -/
def name? (m : Member) : Option String := (Json.readText? true m.name).map Prod.fst

/-- What the value of a member is for a field of a kind. -/
def value? (m : Member) (kind : FieldKind) : Option kind.Value := (take? kind m.value).map Prod.fst

/-- A member as it is written. -/
inductive IsWritten (m : Member) : List Char → Prop
  | mk {before after : List Char} (hname : IsText m.name) (hbefore : AreBlanks before)
      (hafter : AreBlanks after) (hvalue : IsValue m.value) :
      IsWritten m (m.name ++ before ++ ':' :: (after ++ m.value))

end Member

/-- Members as they are written, up to the brace after them. -/
inductive AreMembers : List Member → List Char → Prop
  | last {m : Member} {before item after : List Char} (hbefore : AreBlanks before)
      (hitem : m.IsWritten item) (hafter : AreBlanks after) :
      AreMembers [m] (before ++ item ++ after ++ ['\x7d'])
  | more {m : Member} {ms : List Member} {before item after rest : List Char}
      (hbefore : AreBlanks before) (hitem : m.IsWritten item) (hafter : AreBlanks after)
      (h : AreMembers ms rest) : AreMembers (m :: ms) (before ++ item ++ after ++ ',' :: rest)

/-- An object with given members. -/
inductive IsObject : List Member → List Char → Prop
  | empty {blanks : List Char} (h : AreBlanks blanks) : IsObject [] ('\x7b' :: (blanks ++ ['\x7d']))
  | members {ms : List Member} {cs : List Char} (h : AreMembers ms cs) : IsObject ms ('\x7b' :: cs)

variable {cs tail : List Char}

theorem exists_areMembers_of_isList (h : Json.IsList (Json.IsMember IsValue) '\x7d' cs) :
    ∃ ms, AreMembers ms cs := by
  induction h with
  | last hbefore hitem hafter =>
      obtain @⟨name, between, between', value, hname, hbetween, hbetween', hvalue⟩ := hitem
      exact ⟨[⟨name, value⟩], .last hbefore (.mk hname hbetween hbetween' hvalue) hafter⟩
  | more hbefore hitem hafter h ih =>
      obtain @⟨name, between, between', value, hname, hbetween, hbetween', hvalue⟩ := hitem
      obtain ⟨ms, hms⟩ := ih
      exact ⟨⟨name, value⟩ :: ms, .more hbefore (.mk hname hbetween hbetween' hvalue) hafter hms⟩

/-- Every value that starts with a brace is an object with some members. -/
theorem exists_isObject (h : IsValue ('\x7b' :: cs)) : ∃ ms, IsObject ms ('\x7b' :: cs) := by
  generalize hobject : '\x7b' :: cs = object at h
  cases h with
  | null => cases hobject
  | true => cases hobject
  | false => cases hobject
  | number h =>
      obtain ⟨c, part, rfl, hc⟩ := Json.head_of_isNumber h
      rw [← (List.cons.inj hobject).1] at hc
      exact absurd hc (by decide)
  | text h =>
      cases h
      cases hobject
  | emptyArray _ => cases hobject
  | array _ => cases hobject
  | emptyObject h => exact ⟨[], .empty h⟩
  | object h =>
      obtain ⟨ms, hms⟩ := exists_areMembers_of_isList h
      exact ⟨ms, .members hms⟩

end Request

open Request (Member Slots Values)

/-! ### Fields -/

/-- Puts a member into the slot of a field, if it has the name of the field. -/
def Field.put? (f : Field) (slot : Option f.kind.Value) (m : Member) :
    Option (Option f.kind.Value) :=
  if m.name? = some f.name then
    if slot.isSome then none else (m.value? f.kind).map some
  else some slot

/-- The members with the name of a field. -/
def Field.membersOf (f : Field) (ms : List Member) : List Member :=
  ms.filter fun m => m.name? == some f.name

/-- The value that members give to a field. -/
def Field.given? (f : Field) (ms : List Member) : Option f.kind.Value :=
  match f.membersOf ms with
  | [] => f.ifAbsent?
  | [m] => m.value? f.kind
  | _ => none

namespace Request

/-- Puts a member into the slots of those fields that have its name; it needs to have a name. -/
def put? : (fs : List Field) → Slots fs → Member → Option (Slots fs)
  | [], (), m => m.name?.map fun _ => ()
  | f :: fs, (slot, slots), m =>
    (f.put? slot m).bind fun slot => (put? fs slots m).map fun slots => (slot, slots)

/-- The values that members give to fields; nothing if a member has no name. -/
def values? : (fs : List Field) → List Member → Option (Values fs)
  | [], ms => if ∀ m ∈ ms, m.name?.isSome = true then some () else none
  | f :: fs, ms => (f.given? ms).bind fun v => (values? fs ms).map fun vs => (v, vs)

end Request

/-! ### One pass is a pass for each field -/

variable {f : Field} {fs : List Field} {m : Member} {ms : List Member}

theorem Field.membersOf_cons_of_eq (h : m.name? = some f.name) :
    f.membersOf (m :: ms) = m :: f.membersOf ms :=
  List.filter_cons_of_pos (by simpa using h)

theorem Field.membersOf_cons_of_ne (h : m.name? ≠ some f.name) :
    f.membersOf (m :: ms) = f.membersOf ms :=
  List.filter_cons_of_neg (by simpa using h)

theorem Field.put?_of_eq (h : m.name? = some f.name) :
    f.put? none m = (m.value? f.kind).map some := by
  rw [Field.put?, if_pos h]
  rfl

/-- A field takes no second member. -/
theorem Field.put?_some_of_eq (h : m.name? = some f.name) (v : f.kind.Value) :
    f.put? (some v) m = none := by
  rw [Field.put?, if_pos h]
  rfl

theorem Field.put?_of_ne (h : m.name? ≠ some f.name) (slot : Option f.kind.Value) :
    f.put? slot m = some slot :=
  if_neg h

theorem Field.foldlM_put?_some (f : Field) (v : f.kind.Value) (ms : List Member) :
    ms.foldlM f.put? (some v) = if f.membersOf ms = [] then some (some v) else none := by
  induction ms with
  | nil => rfl
  | cons m ms ih =>
      rw [List.foldlM_cons]
      by_cases hm : m.name? = some f.name
      · rw [Field.put?_some_of_eq hm, Field.membersOf_cons_of_eq hm]
        rfl
      · rw [Field.put?_of_ne hm, Field.membersOf_cons_of_ne hm, ← ih]
        rfl

/-- A pass for one field finds what its members give it. -/
theorem Field.given?_eq (f : Field) (ms : List Member) :
    f.given? ms = (ms.foldlM f.put? none).bind fun slot => slot <|> f.ifAbsent? := by
  induction ms with
  | nil => rfl
  | cons m ms ih =>
      rw [List.foldlM_cons]
      by_cases hm : m.name? = some f.name
      · rw [Field.given?, Field.membersOf_cons_of_eq hm, Field.put?_of_eq hm]
        cases hv : m.value? f.kind with
        | none =>
            cases f.membersOf ms with
            | nil => exact hv
            | cons m' ms' => rfl
        | some v =>
            show _ = (ms.foldlM f.put? (some v)).bind _
            rw [Field.foldlM_put?_some]
            cases f.membersOf ms with
            | nil => exact hv
            | cons m' ms' => rfl
      · rw [Field.given?, Field.membersOf_cons_of_ne hm, Field.put?_of_ne hm]
        exact ih

namespace Request

theorem foldlM_put?_nil (ms : List Member) :
    ms.foldlM (put? []) () = if ∀ m ∈ ms, m.name?.isSome = true then some () else none := by
  induction ms with
  | nil => rfl
  | cons m ms ih =>
      rw [List.foldlM_cons, put?]
      simp only [List.forall_mem_cons]
      cases m.name? with
      | none => rfl
      | some name => simpa using ih

theorem foldlM_put?_cons (f : Field) (fs : List Field) (ms : List Member) :
    ∀ (slot : Option f.kind.Value) (slots : Slots fs),
      ms.foldlM (put? (f :: fs)) (slot, slots) = (ms.foldlM f.put? slot).bind fun slot =>
        (ms.foldlM (put? fs) slots).map fun slots => (slot, slots) := by
  induction ms with
  | nil =>
      intro slot slots
      rfl
  | cons m ms ih =>
      intro slot slots
      rw [List.foldlM_cons, List.foldlM_cons, List.foldlM_cons, put?]
      cases f.put? slot m with
      | none => rfl
      | some slot =>
          cases put? fs slots m with
          | none =>
              show none = (ms.foldlM f.put? slot).bind fun _ => none
              cases ms.foldlM f.put? slot <;> rfl
          | some slots => exact ih slot slots

theorem toOption_complete_cons (f : Field) (fs : List Field) (slot : Option f.kind.Value)
    (slots : Slots fs) : (complete (f :: fs) (slot, slots)).toOption =
      (slot <|> f.ifAbsent?).bind fun v => (complete fs slots).toOption.map fun vs => (v, vs) := by
  rw [complete]
  cases slot <|> f.ifAbsent? with
  | none => rfl
  | some v => exact toOption_map _ _

/-- The values of the fields are what is in their slots after one pass, or what stands for those
that are empty. -/
theorem values?_eq (fs : List Field) (ms : List Member) : values? fs ms =
    (ms.foldlM (put? fs) (noSlots fs)).bind fun slots => (complete fs slots).toOption := by
  induction fs with
  | nil =>
      rw [values?, noSlots, foldlM_put?_nil]
      split <;> rfl
  | cons f fs ih =>
      rw [values?, noSlots, foldlM_put?_cons, Field.given?_eq, ih]
      cases ms.foldlM f.put? none with
      | none => rfl
      | some slot =>
          simp only [Option.bind_some]
          cases ms.foldlM (put? fs) (noSlots fs) with
          | none => cases slot <|> f.ifAbsent? <;> rfl
          | some slots => exact (toOption_complete_cons f fs slot slots).symm

/-! ### Reading members -/

variable {before item after : List Char}

theorem put?_of_name?_eq_none (h : m.name? = none) : ∀ (fs : List Field) (slots : Slots fs),
    put? fs slots m = none := by
  intro fs
  induction fs with
  | nil =>
      rintro ⟨⟩
      rw [put?, h]
      rfl
  | cons f fs ih =>
      rintro ⟨slot, slots⟩
      rw [put?, Field.put?_of_ne (by simp [h]), ih slots]
      rfl

/-- A member leaves the slots alone if no field has its name. -/
theorem put?_of_unknown {name : String} (h : m.name? = some name) : ∀ {fs : List Field}
    (slots : Slots fs), name ∉ fs.map Field.name → put? fs slots m = some slots := by
  intro fs
  induction fs with
  | nil =>
      rintro ⟨⟩ -
      rw [put?, h]
      rfl
  | cons f fs ih =>
      rintro ⟨slot, slots⟩ hunknown
      obtain ⟨hne, hunknown⟩ := not_or.mp (mt List.mem_cons.mpr hunknown)
      rw [put?, Field.put?_of_ne (by simpa [h] using hne), ih slots hunknown]
      rfl

/-- What a member is worth, it is worth wherever it stands. -/
theorem toOption_readKind_value (depth : ℕ) (kind : FieldKind) (h : IsValue m.value)
    (htail : EndsBefore tail) :
    (readKind depth kind (m.value ++ tail)).toOption = (m.value? kind).map fun v => (v, tail) := by
  obtain ⟨c, part, hvalue, hc⟩ := Json.head_of_isValue h
  have hblanks : skipBlanks (m.value ++ tail) = m.value ++ tail := by
    rw [hvalue]
    exact Json.skipBlanks_of_ne hc.1 _
  rw [toOption_readKind depth kind hblanks, Member.value?, take?, take?,
    Json.readScalar?_append true h htail]
  cases Json.readScalar? true m.value with
  | none => rfl
  | some r => cases hv : kind.ofJson? r.1 <;> simp [hv]

theorem readAfterColon_value {α : Type} (read : List Char → Outcome α) (hbefore : AreBlanks before)
    (hafter : AreBlanks after) (h : IsValue m.value) :
    readAfterColon read (before ++ ':' :: (after ++ m.value ++ tail)) = read (m.value ++ tail) := by
  obtain ⟨c, part, hvalue, hc⟩ := Json.head_of_isValue h
  rw [readAfterColon, Json.skipBlanks_append_cons hbefore (by decide), hvalue]
  show read (skipBlanks (after ++ c :: part ++ tail)) = _
  rw [List.append_assoc, List.cons_append, Json.skipBlanks_append_cons hafter hc.1]

/-- The value of a member is read into the slot of its field, or skipped if there is none. -/
theorem toOption_readMember (depth : ℕ) {name : String} (hname : m.name? = some name)
    (hbefore : AreBlanks before) (hafter : AreBlanks after) (hvalue : IsValue m.value)
    (htail : EndsBefore tail) : ∀ {fs : List Field} (slots : Slots fs),
      (fs.map Field.name).Nodup →
        (readMember depth name fs slots (before ++ ':' :: (after ++ m.value ++ tail))).toOption =
          (put? fs slots m).map fun slots => (slots, tail) := by
  intro fs
  induction fs with
  | nil =>
      rintro ⟨⟩ -
      have hnil : AreBlanks [] := by simp [AreBlanks]
      have hskip : Json.skipValue? (m.value ++ tail) = some tail :=
        Json.skipValue?_of_isValue hnil hvalue htail
      rw [readMember, readAfterColon_value _ hbefore hafter hvalue, hskip, put?, hname]
      rfl
  | cons f fs ih =>
      rintro ⟨slot, slots⟩ hnodup
      obtain ⟨hnew, hnodup⟩ := List.nodup_cons.mp hnodup
      rw [readMember, put?]
      by_cases hfield : name = f.name
      · have hm : m.name? = some f.name := hname.trans (congrArg some hfield)
        rw [if_pos hfield]
        cases slot with
        | some v =>
            rw [Field.put?_some_of_eq hm]
            rfl
        | none =>
            rw [if_neg (by simp), toOption_map, readAfterColon_value _ hbefore hafter hvalue,
              toOption_readKind_value depth f.kind hvalue htail, Field.put?_of_eq hm,
              put?_of_unknown hm slots hnew]
            cases m.value? f.kind <;> rfl
      · have hm : m.name? ≠ some f.name := by simpa [hname] using hfield
        rw [if_neg hfield, toOption_map, ih slots hnodup, Field.put?_of_ne hm]
        cases put? fs slots m <;> rfl

/-- The name of a member is read wherever the member stands, or it has none. -/
theorem readText?_isWritten (hitem : m.IsWritten item) (tail : List Char) :
    ∃ between between', AreBlanks between ∧ AreBlanks between' ∧ IsValue m.value ∧
      Json.readText? true (item ++ tail) =
        m.name?.map fun name => (name, between ++ ':' :: (between' ++ m.value ++ tail)) := by
  obtain @⟨between, between', hname, hbetween, hbetween', hvalue⟩ := hitem
  have hends := Json.endsBefore_append hbetween
    (endsBefore_mark (c := ':') (by decide) (between' ++ m.value ++ tail))
  have hread := (Json.judges_readText? hname).append true hends
  refine ⟨between, between', hbetween, hbetween', hvalue, ?_⟩
  rw [Member.name?, Option.map_map]
  simp only [List.append_assoc, List.cons_append] at hread ⊢
  exact hread

theorem head_of_isWritten (hitem : m.IsWritten item) : ∃ part, item = '"' :: part := by
  obtain ⟨hname, -, -, -⟩ := hitem
  obtain ⟨part, hpart⟩ := Json.head_of_isText hname
  rw [hpart]
  exact ⟨_, rfl⟩

theorem skipBlanks_isWritten (hbefore : AreBlanks before) (hitem : m.IsWritten item)
    (cs : List Char) : skipBlanks (before ++ (item ++ cs)) = item ++ cs := by
  obtain ⟨part, rfl⟩ := head_of_isWritten hitem
  exact Json.skipBlanks_append_cons hbefore (by decide) _

/-- A step of the pass reads the name of a member and puts its value into a slot, or else fails. -/
theorem exists_readMember (depth : ℕ) (hbefore : AreBlanks before) (hitem : m.IsWritten item)
    (hafter : AreBlanks after) (htail : EndsBefore tail) (hnodup : (fs.map Field.name).Nodup)
    (slots : Slots fs) :
    (put? fs slots m = none ∧ ∀ steps, (readMembers depth fs (steps + 1) slots
        (skipBlanks (before ++ item ++ after ++ tail))).toOption = none) ∨
      ∃ name rest slots', put? fs slots m = some slots' ∧
        Json.readText? true (skipBlanks (before ++ item ++ after ++ tail)) = some (name, rest) ∧
        readMember depth name fs slots rest = .ok (slots', after ++ tail) := by
  have hends := Json.endsBefore_append hafter htail
  obtain ⟨between, between', hbetween, hbetween', hvalue, hread⟩ :=
    readText?_isWritten hitem (after ++ tail)
  have hstart : skipBlanks (before ++ item ++ after ++ tail) = item ++ (after ++ tail) := by
    rw [List.append_assoc, List.append_assoc, skipBlanks_isWritten hbefore hitem]
  rw [hstart, hread]
  cases hname : m.name? with
  | none =>
      refine .inl ⟨put?_of_name?_eq_none hname fs slots, fun steps => ?_⟩
      rw [readMembers, hread, hname]
      rfl
  | some name =>
      have hmember := toOption_readMember depth hname hbetween hbetween' hvalue hends slots hnodup
      cases hput : put? fs slots m with
      | none =>
          rw [hput] at hmember
          obtain ⟨e, he⟩ := toOption_eq_none.mp hmember
          refine .inl ⟨rfl, fun steps => ?_⟩
          rw [readMembers, hread, hname]
          dsimp only [Option.map_some]
          rw [he]
          rfl
      | some slots' =>
          rw [hput] at hmember
          exact .inr ⟨name, _, slots', rfl, rfl, toOption_eq_some.mp hmember⟩

/-- **The pass over the members** puts one after the other into the slots. -/
theorem toOption_readMembers (depth : ℕ) (hnodup : (fs.map Field.name).Nodup)
    (h : AreMembers ms cs) : ∀ {steps : ℕ} (slots : Slots fs) (tail : List Char), ms.length ≤ steps →
      (readMembers depth fs steps slots (skipBlanks (cs ++ tail))).toOption =
        (ms.foldlM (put? fs) slots).map fun slots => (slots, tail) := by
  induction h with
  | @last m before item after hbefore hitem hafter =>
      intro steps slots tail hsteps
      obtain _ | steps := steps
      · cases hsteps
      have hends := endsBefore_mark (c := '\x7d') (by decide) tail
      have hstep := exists_readMember depth hbefore hitem hafter hends hnodup slots
      rw [List.append_assoc, List.singleton_append, List.foldlM_cons]
      obtain ⟨hput, hnone⟩ | ⟨name, rest, slots', hput, hname, hmember⟩ := hstep
      · rw [hput, hnone]
        rfl
      · rw [hput, readMembers, hname]
        dsimp only
        rw [hmember]
        dsimp only
        rw [Json.skipBlanks_append_cons hafter (by decide)]
        rfl
  | @more m ms before item after rest hbefore hitem hafter h ih =>
      intro steps slots tail hsteps
      obtain _ | steps := steps
      · cases hsteps
      have hends := endsBefore_mark (c := ',') (by decide) (rest ++ tail)
      have hstep := exists_readMember depth hbefore hitem hafter hends hnodup slots
      rw [List.append_assoc, List.cons_append, List.foldlM_cons]
      obtain ⟨hput, hnone⟩ | ⟨name, afterName, slots', hput, hname, hmember⟩ := hstep
      · rw [hput, hnone]
        rfl
      · rw [hput, readMembers, hname]
        dsimp only
        rw [hmember]
        dsimp only
        rw [Json.skipBlanks_append_cons hafter (by decide)]
        exact ih slots' tail (Nat.le_of_succ_le_succ hsteps)

/-- Members start with a name, and each of them takes a character at least. -/
theorem exists_skipBlanks_of_areMembers (h : AreMembers ms cs) (tail : List Char) :
    ∃ rest, skipBlanks (cs ++ tail) = '"' :: rest ∧ ms.length ≤ rest.length + 1 := by
  induction h with
  | @last m before item after hbefore hitem hafter =>
      rw [List.append_assoc, List.append_assoc, List.append_assoc,
        skipBlanks_isWritten hbefore hitem]
      obtain ⟨part, rfl⟩ := head_of_isWritten hitem
      exact ⟨_, rfl, Nat.le_add_left 1 _⟩
  | @more m ms before item after rest hbefore hitem hafter h ih =>
      obtain ⟨rest', hrest, hlength⟩ := ih
      have hshorter : (skipBlanks (rest ++ tail)).length ≤ (rest ++ tail).length :=
        (List.dropWhile_suffix _).length_le
      rw [hrest] at hshorter
      rw [List.append_assoc, List.append_assoc, List.append_assoc,
        skipBlanks_isWritten hbefore hitem]
      obtain ⟨part, rfl⟩ := head_of_isWritten hitem
      rw [List.cons_append]
      refine ⟨_, rfl, ?_⟩
      simp only [List.length_append, List.length_cons] at hshorter hlength ⊢
      omega

/-- What has been read of an object when it ends decides on the values of the fields. -/
theorem toOption_complete (r : Except DecodeError (Slots fs × List Char)) :
    (r.bind fun r => (complete fs r.1).map fun vs => (vs, r.2)).toOption =
      r.toOption.bind fun r => (complete fs r.1).toOption.map fun vs => (vs, r.2) := by
  cases r with
  | error e => rfl
  | ok r => exact toOption_map _ _

theorem readObject_members (depth : ℕ) {rest : List Char} (h : skipBlanks cs = '"' :: rest) :
    readObject depth fs cs =
      (readMembers depth fs (rest.length + 1) (noSlots fs) ('"' :: rest)).bind fun r =>
        (complete fs r.1).map fun vs => (vs, r.2) := by
  unfold readObject
  rw [h]
  extract_lets read
  have hread : read = readMembers depth fs (rest.length + 1) (noSlots fs) ('"' :: rest) := rfl
  rw [hread]
  cases readMembers depth fs (rest.length + 1) (noSlots fs) ('"' :: rest) <;> rfl

/-- **What a request makes of an object** is what the members give to its fields. -/
theorem toOption_read (request : String) (hnodup : (fs.map Field.name).Nodup)
    (hbefore : AreBlanks before) (h : IsObject ms cs) (tail : List Char) :
    (read request fs (before ++ (cs ++ tail))).toOption =
      (values? fs ms).map fun vs => (vs, tail) := by
  rw [values?_eq]
  cases h with
  | @empty blanks h =>
      rw [read, List.cons_append, Json.skipBlanks_append_cons hbefore (by decide)]
      show (readObject (Json.maxDepth - 1) fs (blanks ++ ['\x7d'] ++ tail)).toOption = _
      rw [readObject, List.append_assoc, List.singleton_append,
        Json.skipBlanks_append_cons h (by decide)]
      exact toOption_map _ _
  | @members ms cs h =>
      obtain ⟨rest, hstart, hlength⟩ := exists_skipBlanks_of_areMembers h tail
      have hpass := toOption_readMembers (Json.maxDepth - 1) hnodup h (noSlots fs) tail hlength
      rw [hstart] at hpass
      rw [read, List.cons_append, Json.skipBlanks_append_cons hbefore (by decide)]
      show (readObject (Json.maxDepth - 1) fs (cs ++ tail)).toOption = _
      rw [readObject_members _ hstart, toOption_complete, hpass]
      cases ms.foldlM (put? fs) (noSlots fs) <;> rfl

end Request

end Reckoner
