/-
Requests do not depend on how their bodies are arranged.

The members of a body may stand in any order, members with other names may come and go, and what may
be left out may as well be written down: `Rearranged` is what can be reached in such steps, in both
directions.  A body is decoded as what its members give to the fields, one field at a time, so it
is decoded exactly if all its rearrangements are, and as the same request.  There is no condition on
the number of members or on their values; bodies that are refused, for instance because a field is
given twice, are refused in every arrangement.
-/
import Reckoner.Proofs.Request.Body
import Reckoner.Request.Basic

namespace Reckoner

open Json (AreBlanks IsText IsValue skipBlanks)
open Outcome (toOption_map toOption_eq_some toOption_eq_none)
open Request (Member IsObject values?)

variable {f : Field} {fs : List Field} {m : Member} {ms ms' : List Member}

namespace Request

/-! ### Rearrangements -/

/-- The members of a body and those of a rearrangement of it. -/
inductive Rearranged (fs : List Field) : List Member → List Member → Prop
  | permuted {ms ms' : List Member} (h : ms.Perm ms') : Rearranged fs ms ms'
  /-- A member is added that has the name of no field. -/
  | unknown {m : Member} {ms : List Member} {name : String} (hname : m.name? = some name)
      (hunknown : name ∉ fs.map Field.name) : Rearranged fs ms (m :: ms)
  /-- A field that was left out is given the value that stands for it. -/
  | spelled {f : Field} {m : Member} {ms : List Member} {v : f.kind.Value} (hf : f ∈ fs)
      (habsent : ∀ m' ∈ ms, m'.name? ≠ some f.name) (hname : m.name? = some f.name)
      (hdefault : f.ifAbsent? = some v) (hvalue : m.value? f.kind = some v) :
      Rearranged fs ms (m :: ms)
  | symm {ms ms' : List Member} (h : Rearranged fs ms ms') : Rearranged fs ms' ms
  | trans {ms ms' ms'' : List Member} (h : Rearranged fs ms ms') (h' : Rearranged fs ms' ms'') :
      Rearranged fs ms ms''

end Request

theorem Field.given?_perm (f : Field) (h : ms.Perm ms') : f.given? ms = f.given? ms' := by
  have hmembers : (f.membersOf ms).Perm (f.membersOf ms') := h.filter _
  rw [Field.given?, Field.given?]
  generalize f.membersOf ms = xs at hmembers ⊢
  generalize f.membersOf ms' = ys at hmembers ⊢
  cases xs with
  | nil => rw [List.nil_perm.mp hmembers]
  | cons x xs =>
      cases xs with
      | nil => rw [List.singleton_perm.mp hmembers]
      | cons x' xs =>
          -- More than one member are as many in any order.
          have hlength := hmembers.length_eq
          cases ys with
          | nil => cases hlength
          | cons y ys =>
              cases ys with
              | nil => cases hlength
              | cons y' ys => rfl

theorem Field.given?_cons_of_ne (h : m.name? ≠ some f.name) : f.given? (m :: ms) = f.given? ms := by
  rw [Field.given?, Field.membersOf_cons_of_ne h]
  rfl

theorem Field.given?_cons_of_absent (habsent : ∀ m' ∈ ms, m'.name? ≠ some f.name)
    (hname : m.name? = some f.name) (hvalue : m.value? f.kind = f.ifAbsent?) :
    f.given? (m :: ms) = f.given? ms := by
  have hnone : f.membersOf ms = [] := List.filter_eq_nil_iff.mpr (by simpa using habsent)
  rw [Field.given?, Field.membersOf_cons_of_eq hname, Field.given?, hnone]
  exact hvalue

/-- What stands for a field that is left out can also be written down. -/
def Field.IsSpellable (f : Field) : Prop :=
  ∀ v, f.ifAbsent? = some v → ∃ cs, IsValue cs ∧ ∀ name, Member.value? ⟨name, cs⟩ f.kind = some v

theorem Field.isSpellable_of_required (h : f.ifAbsent? = none) : f.IsSpellable := by
  intro v hv
  rw [h] at hv
  cases hv

theorem Field.isSpellable_of_take? (text : String)
    (hvalue : (Json.readValue? false 0 0 text.toList).map Prod.snd = some [])
    (htake : (Request.take? f.kind text.toList).map Prod.fst = f.ifAbsent?) : f.IsSpellable :=
  fun _ hv => ⟨text.toList, Takes.of_map_snd (Json.takes_readValue? false 0 0) hvalue,
    fun _ => htake.trans hv⟩

namespace Request

theorem values?_congr (h : ∀ f ∈ fs, f.given? ms = f.given? ms')
    (hnames : (∀ m ∈ ms, m.name?.isSome = true) ↔ ∀ m ∈ ms', m.name?.isSome = true) :
    values? fs ms = values? fs ms' := by
  induction fs with
  | nil =>
      rw [values?, values?]
      simp only [hnames]
  | cons f fs ih =>
      obtain ⟨hf, hfs⟩ := List.forall_mem_cons.mp h
      rw [values?, values?, hf, ih hfs]

/-- Rearranged members give the same values. -/
theorem values?_of_rearranged (hnodup : (fs.map Field.name).Nodup) (h : Rearranged fs ms ms') :
    values? fs ms = values? fs ms' := by
  induction h with
  | permuted h => exact values?_congr (fun f _ => f.given?_perm h) (by simp only [h.mem_iff])
  | @unknown m ms name hname hunknown =>
      refine values?_congr (fun f hf => ?_) (by simp [hname])
      refine (Field.given?_cons_of_ne ?_).symm
      rw [hname]
      intro heq
      exact hunknown (List.mem_map.mpr ⟨f, hf, (Option.some.inj heq).symm⟩)
  | @spelled f m ms v hf habsent hname hdefault hvalue =>
      refine values?_congr (fun f' hf' => ?_) (by simp [hname])
      by_cases hsame : f'.name = f.name
      · obtain rfl : f' = f := List.inj_on_of_nodup_map hnodup hf' hf hsame
        exact (Field.given?_cons_of_absent habsent hname (hvalue.trans hdefault.symm)).symm
      · refine (Field.given?_cons_of_ne ?_).symm
        rw [hname]
        intro heq
        exact hsame (Option.some.inj heq).symm
  | symm h ih => exact ih.symm
  | trans h h' ih ih' => exact ih.trans ih'

/-! ### Bodies -/

/-- A body: an object with blanks around it. -/
def IsBody (ms : List Member) (body : String) : Prop :=
  ∃ before object after, body.toList = before ++ (object ++ after) ∧
    AreBlanks before ∧ IsObject ms object ∧ AreBlanks after

/-- Every document that starts with a brace is a body with some members. -/
theorem exists_isBody {body : String} (h : Json.IsDocument body)
    (hbrace : (skipBlanks body.toList).head? = some '\x7b') : ∃ ms, IsBody ms body := by
  obtain ⟨before, value, after, hsplit, hbefore, hvalue, hafter⟩ := h
  obtain ⟨c, cs, rfl, hc⟩ := Json.head_of_isValue hvalue
  rw [hsplit, List.append_assoc, List.cons_append,
    Json.skipBlanks_append_cons hbefore hc.1] at hbrace
  cases hbrace
  obtain ⟨ms, hms⟩ := exists_isObject hvalue
  exact ⟨ms, before, _, after, by rw [hsplit, List.append_assoc], hbefore, hms, hafter⟩

/-- Members without blanks, up to the brace after them. -/
def compact : List Member → List Char
  | [] => ['\x7d']
  | [m] => m.name ++ ':' :: m.value ++ ['\x7d']
  | m :: ms => m.name ++ ':' :: m.value ++ ',' :: compact ms

theorem areMembers_compact (h : ∀ m ∈ ms, IsText m.name ∧ IsValue m.value) (hne : ms ≠ []) :
    AreMembers ms (compact ms) := by
  have hnil : AreBlanks [] := by simp [AreBlanks]
  induction ms with
  | nil => exact absurd rfl hne
  | cons m ms ih =>
      obtain ⟨⟨hname, hvalue⟩, hms⟩ := List.forall_mem_cons.mp h
      have hwritten : m.IsWritten (m.name ++ [] ++ ':' :: ([] ++ m.value)) :=
        .mk hname hnil hnil hvalue
      cases ms with
      | nil => simpa [compact] using AreMembers.last hnil hwritten hnil
      | cons m' ms =>
          have hrest := ih hms (List.cons_ne_nil m' ms)
          simpa [compact] using AreMembers.more hnil hwritten hnil hrest

/-- Whatever the members are, there is a body for them. -/
theorem isBody_compact (h : ∀ m ∈ ms, IsText m.name ∧ IsValue m.value) :
    IsBody ms (String.ofList ('\x7b' :: compact ms)) := by
  have hnil : AreBlanks [] := by simp [AreBlanks]
  refine ⟨[], '\x7b' :: compact ms, [], by simp, hnil, ?_, hnil⟩
  cases ms with
  | nil => exact .empty hnil
  | cons m ms => exact .members (areMembers_compact h (List.cons_ne_nil m ms))

end Request

/-! ### The requests -/

/-- The requests of the web interface. -/
inductive RequestType where
  | convert
  | convertAll
  | calculate
  | graph
  | programmer

namespace RequestType

/-- What a body is decoded as. -/
abbrev Query : RequestType → Type
  | convert => ConvertRequest
  | convertAll => ConvertAllRequest
  | calculate => CalculateRequest
  | graph => GraphRequest
  | programmer => ProgrammerRequest

/-- The fields of a request. -/
def fields : RequestType → List Field
  | convert => ConvertRequest.fields
  | convertAll => ConvertAllRequest.fields
  | calculate => CalculateRequest.fields
  | graph => GraphRequest.fields
  | programmer => ProgrammerRequest.fields

/-- The reader of a request. -/
def read : (t : RequestType) → List Char → Request.Outcome t.Query
  | convert => ConvertRequest.read
  | convertAll => ConvertAllRequest.read
  | calculate => CalculateRequest.read
  | graph => GraphRequest.read
  | programmer => ProgrammerRequest.read

/-- A request made up of the values of its fields. -/
def build : (t : RequestType) → Request.Values t.fields → t.Query
  | convert, (category, source, target, value, ()) => ⟨category, source, target, value⟩
  | convertAll, (category, source, value, ()) => ⟨category, source, value⟩
  | calculate, (expression, ()) => ⟨expression⟩
  | graph, (expression, xMin, xMax, samples, ()) => ⟨expression, xMin, xMax, samples⟩
  | programmer, (lhs, op, rhs, radix, wordSize, ()) => ⟨lhs, op, rhs, radix, wordSize⟩

theorem nodup_fields (t : RequestType) : (t.fields.map Field.name).Nodup := by
  cases t <;> decide

/-- Whatever may be left out of a request can be spelled out. -/
theorem isSpellable_of_mem_fields (t : RequestType) : ∀ f ∈ t.fields, f.IsSpellable := by
  cases t with
  | convert =>
      simp only [fields, ConvertRequest.fields, List.forall_mem_cons]
      refine ⟨?_, ?_, ?_, ?_, by simp⟩
      · exact Field.isSpellable_of_take? "\"Length\"" (by decide +kernel) (by decide +kernel)
      · exact Field.isSpellable_of_required rfl
      · exact Field.isSpellable_of_required rfl
      · exact Field.isSpellable_of_take? "0" (by decide +kernel) (by decide +kernel)
  | convertAll =>
      simp only [fields, ConvertAllRequest.fields, List.forall_mem_cons]
      refine ⟨?_, ?_, ?_, by simp⟩
      · exact Field.isSpellable_of_take? "null" (by decide +kernel) (by decide +kernel)
      · exact Field.isSpellable_of_required rfl
      · exact Field.isSpellable_of_take? "0" (by decide +kernel) (by decide +kernel)
  | calculate =>
      simp only [fields, CalculateRequest.fields, List.forall_mem_cons]
      refine ⟨?_, by simp⟩
      exact Field.isSpellable_of_take? "\"\"" (by decide +kernel) (by decide +kernel)
  | graph =>
      simp only [fields, GraphRequest.fields, List.forall_mem_cons]
      refine ⟨?_, ?_, ?_, ?_, by simp⟩
      · exact Field.isSpellable_of_take? "\"sin(x)\"" (by decide +kernel) (by decide +kernel)
      · exact Field.isSpellable_of_take? "-10" (by decide +kernel) (by decide +kernel)
      · exact Field.isSpellable_of_take? "10" (by decide +kernel) (by decide +kernel)
      · exact Field.isSpellable_of_take? "600" (by decide +kernel) (by decide +kernel)
  | programmer =>
      simp only [fields, ProgrammerRequest.fields, List.forall_mem_cons]
      refine ⟨?_, ?_, ?_, ?_, ?_, by simp⟩
      · exact Field.isSpellable_of_required rfl
      · exact Field.isSpellable_of_required rfl
      · exact Field.isSpellable_of_take? "null" (by decide +kernel) (by decide +kernel)
      · exact Field.isSpellable_of_take? "\"DEC\"" (by decide +kernel) (by decide +kernel)
      · exact Field.isSpellable_of_take? "32" (by decide +kernel) (by decide +kernel)

/-- Every request is read by its fields. -/
theorem exists_read_eq (t : RequestType) : ∃ name, ∀ cs,
    t.read cs = (Request.read name t.fields cs).map fun r => (t.build r.1, r.2) := by
  cases t with
  | convert => exact ⟨"ConvertRequest", fun cs => rfl⟩
  | convertAll => exact ⟨"ConvertAllRequest", fun cs => rfl⟩
  | calculate => exact ⟨"CalculateRequest", fun cs => rfl⟩
  | graph => exact ⟨"GraphSampleRequest", fun cs => rfl⟩
  | programmer => exact ⟨"ProgrammerRequest", fun cs => rfl⟩

/-- What a body is decoded as, by its members. -/
def decoded? (t : RequestType) (ms : List Member) : Option t.Query :=
  (values? t.fields ms).map t.build

variable {body : String}

theorem toOption_read (t : RequestType) (h : Request.IsBody ms body) :
    ∃ rest, (skipBlanks rest).isEmpty = true ∧
      (t.read body.toList).toOption = (t.decoded? ms).map fun r => (r, rest) := by
  obtain ⟨before, object, after, hsplit, hbefore, hobject, hafter⟩ := h
  obtain ⟨name, hread⟩ := t.exists_read_eq
  refine ⟨after, ?_, ?_⟩
  · have hblanks := Json.skipBlanks_append hafter []
    rw [List.append_nil] at hblanks
    rw [hblanks]
    rfl
  · rw [hread, toOption_map, hsplit,
      Request.toOption_read name t.nodup_fields hbefore hobject after, decoded?]
    cases values? t.fields ms <;> rfl

/-- The whole of a body is decoded as what its members give. -/
theorem whole_eq_ok (t : RequestType) (h : Request.IsBody ms body) {r : t.Query} :
    Request.whole t.read body = .ok r ↔ t.decoded? ms = some r := by
  obtain ⟨rest, hrest, hread⟩ := t.toOption_read h
  rw [Request.whole]
  cases hdecoded : t.decoded? ms with
  | none =>
      rw [hdecoded] at hread
      obtain ⟨e, he⟩ := toOption_eq_none.mp hread
      rw [he]
      exact iff_of_false (fun h => by cases h) (fun h => by cases h)
  | some r' =>
      rw [hdecoded] at hread
      rw [toOption_eq_some.mp hread]
      dsimp only
      rw [if_pos hrest, Except.ok.injEq, Option.some.injEq]

/-- So is a body of which only the start matters. -/
theorem leading_eq_ok (t : RequestType) (h : Request.IsBody ms body) {r : t.Query} :
    Request.leading t.read body = .ok r ↔ t.decoded? ms = some r := by
  obtain ⟨rest, -, hread⟩ := t.toOption_read h
  rw [Request.leading, ← toOption_eq_some, toOption_map, hread]
  cases t.decoded? ms <;> rfl

/--
**Decoding does not depend on the arrangement.**  A body is decoded as the request that its members
give, each field by itself: the value of the one member with its name, or what stands for it if there
is none.  Of two bodies with members that are rearrangements of each other, one is therefore decoded
if and only if the other is, and as the same request; so if one is refused, both are.  All that holds
as well where it does not matter what comes after the object.
-/
theorem decode_rearranged (t : RequestType) {body : String} (h : Request.IsBody ms body)
    (r : t.Query) :
    (Request.whole t.read body = .ok r ↔ t.decoded? ms = some r) ∧
    (Request.leading t.read body = .ok r ↔ t.decoded? ms = some r) ∧
    ∀ ms' body', Request.Rearranged t.fields ms ms' → Request.IsBody ms' body' →
      (Request.whole t.read body' = .ok r ↔ Request.whole t.read body = .ok r) ∧
      (Request.leading t.read body' = .ok r ↔ Request.leading t.read body = .ok r) := by
  refine ⟨t.whole_eq_ok h, t.leading_eq_ok h, fun ms' body' harranged h' => ?_⟩
  have hdecoded : t.decoded? ms' = t.decoded? ms := by
    rw [decoded?, decoded?, Request.values?_of_rearranged t.nodup_fields harranged]
  constructor
  · rw [t.whole_eq_ok h', t.whole_eq_ok h, hdecoded]
  · rw [t.leading_eq_ok h', t.leading_eq_ok h, hdecoded]

/-- A body with one member, and one in which defaults are spelled out, a number that is out of range
is skipped, and the member stands among the others. -/
theorem decode_rearranged_kilometres :
    let unit : Member := ⟨"\"from_unit\"".toList, "\"km\"".toList⟩
    let amount : Member := ⟨"\"value\"".toList, "\"0\"".toList⟩
    let note : Member := ⟨"\"note\"".toList, "[1e999]".toList⟩
    let category : Member := ⟨"\"category\"".toList, "null".toList⟩
    let body := "\x7b\"from_unit\":\"km\"\x7d"
    let body' :=
      "\x7b\"value\":\"0\",\"from_unit\":\"km\",\"note\":[1e999],\"category\":null\x7d"
    Request.IsBody [unit] body ∧ Request.IsBody [amount, unit, note, category] body' ∧
      Request.Rearranged convertAll.fields [unit] [amount, unit, note, category] ∧
      Request.whole ConvertAllRequest.read body = .ok ⟨none, "km", 0.0⟩ ∧
      Request.whole ConvertAllRequest.read body' = .ok ⟨none, "km", 0.0⟩ := by
  intro unit amount note category body body'
  have hms : ∀ m ∈ [amount, unit, note, category], IsText m.name ∧ IsValue m.value := by
    have hread : ∀ m ∈ [amount, unit, note, category],
        (Json.readText? true m.name).map Prod.snd = some [] ∧
          (Json.readValue? false 9 9 m.value).map Prod.snd = some [] := by
      decide +kernel
    intro m hm
    obtain ⟨hname, hvalue⟩ := hread m hm
    exact ⟨Takes.of_map_snd (Json.takes_readText? true) hname,
      Takes.of_map_snd (Json.takes_readValue? false 9 9) hvalue⟩
  have hbody : Request.IsBody [unit] body :=
    Request.isBody_compact fun m hm => hms m (by simp at hm; simp [hm])
  have hbody' : Request.IsBody [amount, unit, note, category] body' := Request.isBody_compact hms
  have harranged : Request.Rearranged convertAll.fields [unit] [amount, unit, note, category] := by
    have hcategory : Request.Rearranged convertAll.fields [unit] [category, unit] :=
      .spelled (f := ⟨"category", .optionalText, none⟩) (v := none)
        (by simp [fields, ConvertAllRequest.fields]) (by decide +kernel) (by decide +kernel) rfl
        (by decide +kernel)
    have hnote : Request.Rearranged convertAll.fields [category, unit] [note, category, unit] :=
      .unknown (show note.name? = some "note" by decide +kernel) (by decide)
    have hamount : Request.Rearranged convertAll.fields [note, category, unit]
        [amount, note, category, unit] :=
      .spelled (f := ⟨"value", .number, some 0.0⟩) (v := 0.0)
        (by simp [fields, ConvertAllRequest.fields]) (by decide +kernel) (by decide +kernel) rfl
        (by decide +kernel)
    exact .trans hcategory (.trans hnote (.trans hamount (.permuted (by decide +kernel))))
  have hdecoded : convertAll.decoded? [unit] = some ⟨none, "km", 0.0⟩ := by
    decide +kernel
  obtain ⟨hwhole, -, hrearranged⟩ := decode_rearranged convertAll hbody ⟨none, "km", 0.0⟩
  have hread := hwhole.mpr hdecoded
  exact ⟨hbody, hbody', harranged, hread, (hrearranged _ _ harranged hbody').1.mpr hread⟩

end RequestType

end Reckoner
