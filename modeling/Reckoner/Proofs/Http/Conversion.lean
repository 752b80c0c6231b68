/-
Conversion into one unit and into all units, as the server answers.

The two endpoints look names up and check the value each in its own order.  Still they agree: an
answer with all units holds for each what the other endpoint answers for that unit alone, and a
refusal of all units is what the other endpoint answers for any of them.
-/
import Reckoner.Proofs.Http.Response
import Reckoner.Proofs.Units.Conversion

namespace Reckoner.Http

variable {category source : String} {c : Category} {v : Double}

/-- The entry of a unit in an answer with all units, given the answer for that unit alone. -/
inductive EntryFor (unit : String) : HttpResponse → Json → Prop where
  | converted (w : Double) :
      EntryFor unit (accepted [("result", .text (Amount.text w)), ("value", number w)])
        (.object [("unit", .text unit), ("result", .text (Amount.text w)), ("value", number w)])
  | failed (message : String) :
      EntryFor unit (refused message)
        (.object [("unit", .text unit), ("result", .text "Error"), ("error", .text message)])

/-! ### Categories that are found -/

theorem operation_conversion (hc : Category.resolve category = .ok c) (target : String) :
    conversion.operation ⟨category, source, target, v⟩ = c.convert source target v := by
  show (Category.resolve category >>= fun c => c.convert source target v) = _
  rw [hc]
  rfl

theorem operation_conversionIntoAll (hc : Category.resolve category = .ok c)
    (fallback : Category) :
    (conversionIntoAll fallback).operation ⟨some category, source, v⟩ = c.convertAll source v := by
  show (Category.resolve category >>= fun c => c.convertAll source v) = _
  rw [hc]
  rfl

theorem entryFor_conversionEntry (hc : Category.resolve category = .ok c) (unit : String) :
    EntryFor unit (conversion.answer ⟨category, source, unit, v⟩)
      (conversionEntry (unit, c.convert source unit v)) := by
  have hoperation : conversion.operation ⟨category, source, unit, v⟩ = c.convert source unit v :=
    operation_conversion hc unit
  cases hw : c.convert source unit v with
  | ok w =>
      rw [Service.answer_ok (hoperation.trans hw)]
      exact .converted w
  | error e =>
      rw [Service.answer_error (hoperation.trans hw)]
      exact .failed e.message

/-! ### The two endpoints -/

/-- If everything is found and the value is finite, all units are given, in display order. -/
theorem answer_conversionIntoAll {i : Nat} (hc : Category.resolve category = .ok c)
    (hi : c.resolveUnit source = .ok i) (hv : v.isFinite = true) (fallback : Category) :
    ∃ entries, (conversionIntoAll fallback).answer ⟨some category, source, v⟩ =
        accepted [("results", .array entries)] ∧
      List.Forall₂ (fun unit entry =>
        EntryFor unit (conversion.answer ⟨category, source, unit, v⟩) entry) c.units entries := by
  have hall := (operation_conversionIntoAll hc fallback).trans (Category.convertAll_eq_ok hi hv)
  refine ⟨_, Service.answer_ok hall, ?_⟩
  rw [List.map_map, List.forall₂_map_right_iff, List.forall₂_same]
  intro unit _
  exact entryFor_conversionEntry hc unit

/-- If the category is found and the source is not, or the value is not finite, then all units are
refused with one message, together and one by one. -/
theorem refused_of_category (hc : Category.resolve category = .ok c)
    (h : ∀ i, c.resolveUnit source = .ok i → v.isFinite = false) (fallback : Category) :
    ∃ message, (conversionIntoAll fallback).answer ⟨some category, source, v⟩ = refused message ∧
      ∀ unit ∈ c.units, conversion.answer ⟨category, source, unit, v⟩ = refused message := by
  obtain ⟨e, hall, heach⟩ := Category.convertAll_eq_error h
  refine ⟨e.message,
    Service.answer_error ((operation_conversionIntoAll hc fallback).trans hall), ?_⟩
  intro unit hunit
  exact Service.answer_error ((operation_conversion hc unit).trans (heach unit hunit))

/-- A category that is not found is refused, whatever the target. -/
theorem refused_of_unknown {e : ConversionError} (hc : Category.resolve category = .error e)
    (fallback : Category) :
    (conversionIntoAll fallback).answer ⟨some category, source, v⟩ = refused e.message ∧
      ∀ target, conversion.answer ⟨category, source, target, v⟩ = refused e.message := by
  constructor
  · refine Service.answer_error (s := conversionIntoAll fallback) ?_
    show (Category.resolve category >>= fun c => c.convertAll source v) = _
    rw [hc]
    rfl
  · intro target
    refine Service.answer_error (s := conversion) ?_
    show (Category.resolve category >>= fun c => c.convert source target v) = _
    rw [hc]
    rfl

/-- Whatever is missing, all units are refused with one message, together and one by one. -/
theorem refused_of_not_found (fallback : Category)
    (h : ¬∃ c i, Category.resolve category = .ok c ∧ c.resolveUnit source = .ok i ∧
      v.isFinite = true) :
    ∃ message, (conversionIntoAll fallback).answer ⟨some category, source, v⟩ = refused message ∧
      (∀ c, Category.resolve category = .ok c → ∀ unit ∈ c.units,
        conversion.answer ⟨category, source, unit, v⟩ = refused message) ∧
      ((∀ c, Category.resolve category ≠ .ok c) →
        ∀ target, conversion.answer ⟨category, source, target, v⟩ = refused message) := by
  cases hc : Category.resolve category with
  | error e =>
      obtain ⟨hall, hsingle⟩ := refused_of_unknown hc fallback
      exact ⟨e.message, hall, nofun, fun _ => hsingle⟩
  | ok c =>
      have hnone : ∀ i, c.resolveUnit source = .ok i → v.isFinite = false :=
        fun i hi => Bool.eq_false_iff.mpr fun hv => h ⟨c, i, hc, hi, hv⟩
      obtain ⟨message, hall, hsingle⟩ := refused_of_category hc hnone fallback
      refine ⟨message, hall, ?_, fun hno => absurd rfl (hno c)⟩
      rintro _ ⟨⟩
      exact hsingle

/--
**The conversion into all units agrees with the conversions into each.**  It is answered with data
exactly if the category and the source are found and the value is finite, and then there is one
entry for each unit, in display order, that tells what is answered for this unit alone.  If it is
refused, each unit is refused with the same message, and where there is no category to have units,
every target is.
-/
theorem convertAll_agrees (config : ServerConfig) (category source : String) (v : Double) :
    let all := (conversionIntoAll .length).answer ⟨some category, source, v⟩
    let single target := conversion.answer ⟨category, source, target, v⟩
    (∀ r, Posts .convertAll ConvertAllRequest.read ⟨some category, source, v⟩ r →
      respond config r = all) ∧
    (∀ target r, Posts .convert ConvertRequest.read ⟨category, source, target, v⟩ r →
      respond config r = single target) ∧
    (all.status = 200 ↔ ∃ c i, Category.resolve category = .ok c ∧
      c.resolveUnit source = .ok i ∧ v.isFinite = true) ∧
    (∀ c, Category.resolve category = .ok c → all.status = 200 →
      ∃ entries, all = accepted [("results", .array entries)] ∧
        List.Forall₂ (fun unit entry => EntryFor unit (single unit) entry) c.units entries) ∧
    (all.status ≠ 200 → ∃ message, all = refused message ∧
      (∀ c, Category.resolve category = .ok c → ∀ unit ∈ c.units, single unit = refused message) ∧
      ((∀ c, Category.resolve category ≠ .ok c) → ∀ target, single target = refused message)) := by
  intro all single
  refine ⟨fun r h => respond_posts (s := conversionIntoAll .length) rfl h,
    fun target r h => respond_posts (s := conversion) rfl h, ?_⟩
  by_cases hfound : ∃ c i, Category.resolve category = .ok c ∧ c.resolveUnit source = .ok i ∧
      v.isFinite = true
  · obtain ⟨c, i, hc, hi, hv⟩ := hfound
    obtain ⟨entries, hall, hentries⟩ := answer_conversionIntoAll hc hi hv .length
    have hstatus : all.status = 200 := congrArg HttpResponse.status hall
    refine ⟨⟨fun _ => ⟨c, i, hc, hi, hv⟩, fun _ => hstatus⟩, ?_, fun h => absurd hstatus h⟩
    intro c' hc' _
    cases hc.symm.trans hc'
    exact ⟨entries, hall, hentries⟩
  · obtain ⟨message, hall, hsingle⟩ := refused_of_not_found .length hfound
    have hrefused : all.status = 400 := congrArg HttpResponse.status hall
    have hstatus : all.status ≠ 200 := by
      rw [hrefused]
      decide
    exact ⟨⟨fun h => absurd h hstatus, fun h => absurd h hfound⟩,
      fun _ _ h => absurd h hstatus, fun _ => ⟨message, hall, hsingle⟩⟩

/-- Where there is no sound, its intensity is given, and in place of its level an error. -/
theorem convertAll_agrees_in_silence :
    ∃ entries,
      respond (.listening "127.0.0.1" 5000)
        ⟨"POST", "/api/convert-all", some "application/json",
          "\x7b\"category\": \"Sound Intensity\", \"from_unit\": \"W/m²\", \"value\": 0\x7d"⟩ =
        accepted [("results", .array entries)] ∧
      List.Forall₂ (fun unit entry =>
        EntryFor unit (conversion.answer ⟨"Sound Intensity", "W/m²", unit, 0.0⟩) entry)
        ["intensity (W/m²)", "level (dB)"] entries := by
  obtain ⟨hall, -, hstatus, hentries, -⟩ :=
    convertAll_agrees (.listening "127.0.0.1" 5000) "Sound Intensity" "W/m²" 0.0
  obtain ⟨entries, hanswer, hentries⟩ :=
    hentries .soundIntensity (by decide +kernel)
      (hstatus.mpr ⟨.soundIntensity, 0, by decide +kernel, by decide +kernel, by decide +kernel⟩)
  exact ⟨entries, (hall _ ⟨rfl, by decide +kernel, by decide +kernel⟩).trans hanswer, hentries⟩

end Reckoner.Http
