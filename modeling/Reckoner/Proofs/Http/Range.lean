/-
Conversions that leave the range of the format, as the server answers.

The value of a conversion is checked before it is converted and not after.  So an answer with data
can have an infinity for a value, which is printed as `null`: it does exactly if a step of the
conversion overflows, and of the arithmetic ones only those of the largest values do.
-/
import Reckoner.Proofs.Http.Response
import Reckoner.Proofs.Numeral
import Reckoner.Proofs.Outcome
import Reckoner.Proofs.Units.Range

namespace Reckoner.Http

open Outcome

/-! ### Numbers and `null` -/

section Characters

variable {c : Char} {d : Decimal}

theorem isDigit_of_mem_write {n : Nat} (h : c ∈ Numeral.write 10 n) : c.isDigit = true := by
  obtain ⟨d, hd, rfl⟩ := List.mem_map.mp h
  exact Numeral.isDigit_digitChar (Numeral.lt_of_mem_digits (by decide) hd)

theorem mem_plain {pointZero : Bool} (h : c ∈ d.plain pointZero) : c.isDigit = true ∨ c = '.' := by
  have hdigit : c ∈ d.digitChars → c.isDigit = true := isDigit_of_mem_write
  have htake : ∀ k, c ∈ d.digitChars.take k → c.isDigit = true :=
    fun k h => hdigit (List.mem_of_mem_take h)
  have hdrop : ∀ k, c ∈ d.digitChars.drop k → c.isDigit = true :=
    fun k h => hdigit (List.mem_of_mem_drop h)
  have hzero : c = '0' → c.isDigit = true := by
    rintro rfl
    rfl
  unfold Decimal.plain at h
  dsimp only at h
  split at h
  · cases pointZero <;> simp at h <;> grind
  · split at h <;> simp at h <;> grind

theorem mem_scientific {plus : Bool} {width : Nat} (h : c ∈ d.scientific plus width) :
    c.isDigit = true ∨ c ∈ ['.', 'e', '+', '-'] := by
  have hdigit : c ∈ d.digitChars → c.isDigit = true := isDigit_of_mem_write
  have hexponent : c ∈ Decimal.exponentChars plus width d.leadingExponent →
      c.isDigit = true ∨ c ∈ ['.', 'e', '+', '-'] := by
    intro h
    have hwrite := @isDigit_of_mem_write c d.leadingExponent.natAbs
    have hzero : c = '0' → c.isDigit = true := by
      rintro rfl
      rfl
    unfold Decimal.exponentChars at h
    dsimp only at h
    split_ifs at h <;> simp at h <;> grind
  unfold Decimal.scientific at h
  dsimp only at h
  split at h
  all_goals
    rename_i hds
    rw [hds] at hdigit
    grind

theorem mem_text {style : NumberStyle} {negative : Bool} {m : Magnitude}
    (h : c ∈ (style.text (.finite negative m)).toList) :
    c.isDigit = true ∨ c ∈ ['.', 'e', '+', '-'] := by
  rw [NumberStyle.text, String.toList_ofList, List.mem_append] at h
  rcases h with h | h
  · cases negative <;> simp_all
  · have hplain : ∀ {d : Decimal}, c ∈ d.plain style.pointZero →
        c.isDigit = true ∨ c ∈ ['.', 'e', '+', '-'] := by
      intro d h
      exact (mem_plain h).imp_right (by rintro rfl; decide)
    unfold NumberStyle.magnitudeChars at h
    dsimp only at h
    split_ifs at h with h0 hstyle
    · exact hplain h
    · exact hplain h
    · exact mem_scientific h

end Characters

/-- A number is printed as `null` exactly if it is not finite. -/
theorem print_number_eq_null_iff (w : Double) :
    (number w).print = "null" ↔ w.isFinite = false := by
  rw [number, Json.print, JsonNumber.print]
  split
  · rename_i hw
    cases w with
    | finite negative m =>
        refine iff_of_false (fun h => ?_) (by simp [hw])
        have hn : 'n' ∈ (JsonNumber.style.text (.finite negative m)).toList := by
          rw [h]
          decide
        exact absurd (mem_text hn) (by decide)
    | _ => cases hw
  · rename_i hw
    exact iff_of_true rfl (Bool.eq_false_iff.mpr hw)

/-! ### Answers -/

variable {config : ServerConfig} {r : HttpRequest} {c : Category} {i j : Nat} {v w : Double}

/-- A value in an answer is printed as `null` exactly if its conversion overflows. -/
theorem print_convertAt_eq_null_iff (hi : i < c.units.length) (hj : j < c.units.length)
    (h : c.convertAt i j v = .ok w) : (number w).print = "null" ↔ ¬c.InRange i j v := by
  rw [print_number_eq_null_iff, ← Bool.not_eq_true,
    Category.isFinite_convertAt_iff (Category.isFinite_of_convertAt h) hi hj h]

/-- What is answered to a post, if it is answered with data. -/
theorem exists_of_status_eq {endpoint : Endpoint} {s : Service} {q : s.Query}
    (hs : service? config endpoint = some s) (h : Posts endpoint s.read q r)
    (hstatus : (respond config r).status = 200) :
    ∃ result, s.operation q = .ok result ∧ respond config r = accepted (s.data result) := by
  rw [respond_posts hs h] at hstatus ⊢
  cases hresult : s.operation q with
  | ok result => exact ⟨result, rfl, Service.answer_ok hresult⟩
  | error e =>
      rw [Service.answer_error hresult] at hstatus
      cases hstatus

theorem conversion_in_range {q : ConvertRequest} (h : Posts .convert ConvertRequest.read q r)
    (hstatus : (respond config r).status = 200) :
    ∃ c i j w, Category.resolve q.category = .ok c ∧ c.resolveUnit q.source = .ok i ∧
      c.resolveUnit q.target = .ok j ∧ c.convertAt i j q.value = .ok w ∧
      respond config r = accepted [("result", .text (Amount.text w)), ("value", number w)] ∧
      ((number w).print = "null" ↔ ¬c.InRange i j q.value) := by
  obtain ⟨w, hw, hanswer⟩ := exists_of_status_eq (s := conversion) rfl h hstatus
  obtain ⟨c, hc, hconvert⟩ := bind_eq_ok.mp hw
  obtain ⟨i, hi, hrest⟩ := bind_eq_ok.mp hconvert
  obtain ⟨j, hj, hvalue⟩ := bind_eq_ok.mp hrest
  exact ⟨c, i, j, w, hc, hi, hj, hvalue, hanswer, print_convertAt_eq_null_iff
    (Category.lt_of_resolveUnit hi) (Category.lt_of_resolveUnit hj) hvalue⟩

theorem conversionIntoAll_in_range {endpoint : Endpoint} {fallback : Category}
    {q : ConvertAllRequest} (hs : service? config endpoint = some (conversionIntoAll fallback))
    (h : Posts endpoint ConvertAllRequest.read q r) (hstatus : (respond config r).status = 200) :
    ∃ c i, categoryOr fallback q.category = .ok c ∧ c.resolveUnit q.source = .ok i ∧
      respond config r = accepted [("results", .array (c.units.zipIdx.map fun (unit, j) =>
        conversionEntry (unit, c.convertAt i j q.value)))] ∧
      ∀ j w, j < c.units.length → c.convertAt i j q.value = .ok w →
        ((number w).print = "null" ↔ ¬c.InRange i j q.value) := by
  obtain ⟨results, hresults, hanswer⟩ :=
    exists_of_status_eq (s := conversionIntoAll fallback) hs h hstatus
  obtain ⟨c, hc, hall⟩ := bind_eq_ok.mp hresults
  obtain ⟨i, hi, hrest⟩ := bind_eq_ok.mp hall
  refine ⟨c, i, hc, hi, ?_, fun j w hj hw =>
    print_convertAt_eq_null_iff (Category.lt_of_resolveUnit hi) hj hw⟩
  split at hrest
  · cases hrest
  · rw [hanswer, ← Except.ok.inj hrest]
    simp only [conversionIntoAll, List.map_map]
    rfl

/--
**A conversion is finite exactly if none of its steps overflows.**  A finite value has a result
unless it is an intensity that is not positive, and the result is finite exactly if the conversion
stays in range; all arithmetic ones do for values up to `2 ^ 980`, and those that do not have an
infinity for a result.  The server answers with these results, and prints those that are not finite
as `null`.
-/
theorem conversions_in_range (config : ServerConfig) :
    (∀ (c : Category) (i j : Nat) (v : Double), v.isFinite = true →
      i < c.units.length → j < c.units.length →
      (∀ w, c.convertAt i j v = .ok w → (w.isFinite = true ↔ c.InRange i j v)) ∧
      (∀ e, c.convertAt i j v = .error e ↔
        e = .nonPositiveIntensity ∧ c = .soundIntensity ∧ i = 0 ∧ j = 1 ∧ v ≤ 0.0) ∧
      (c ≠ .soundIntensity → (∃ w, c.convertAt i j v = .ok w ∧ w ≠ .nan) ∧
        (|v.number| ≤ 2 ^ 980 → c.InRange i j v))) ∧
    (∀ q r, Posts .convert ConvertRequest.read q r → (respond config r).status = 200 →
      ∃ c i j w, Category.resolve q.category = .ok c ∧ c.resolveUnit q.source = .ok i ∧
        c.resolveUnit q.target = .ok j ∧ c.convertAt i j q.value = .ok w ∧
        respond config r = accepted [("result", .text (Amount.text w)), ("value", number w)] ∧
        ((number w).print = "null" ↔ ¬c.InRange i j q.value)) ∧
    (∀ endpoint fallback, service? config endpoint = some (conversionIntoAll fallback) →
      ∀ q r, Posts endpoint ConvertAllRequest.read q r → (respond config r).status = 200 →
      ∃ c i, categoryOr fallback q.category = .ok c ∧ c.resolveUnit q.source = .ok i ∧
        respond config r = accepted [("results", .array (c.units.zipIdx.map fun (unit, j) =>
          conversionEntry (unit, c.convertAt i j q.value)))] ∧
        ∀ j w, j < c.units.length → c.convertAt i j q.value = .ok w →
          ((number w).print = "null" ↔ ¬c.InRange i j q.value)) := by
  refine ⟨?_, fun q r => conversion_in_range,
    fun endpoint fallback hs q r => conversionIntoAll_in_range hs⟩
  intro c i j v hv hi hj
  refine ⟨fun w => Category.isFinite_convertAt_iff hv hi hj,
    fun e => Category.convertAt_eq_error_iff hv hi hj, fun hc => ⟨?_, ?_⟩⟩
  · exact Category.exists_convertAt hc hv hi hj
  · exact Category.inRange_of_abs_le hc hv hi hj

/-- So many kilometres have too many millimetres for the format, and too many metres on the way to
their miles; both are answered with an infinity. -/
theorem kilometres_overflow :
    (1e308 : Double).isFinite = true ∧
      Category.length.convertAt 1 3 1e308 = .ok (.infinite false) ∧
      Category.length.convertAt 1 7 1e308 = .ok (.infinite false) ∧
      respond (.listening "127.0.0.1" 5000)
        ⟨"POST", "/api/convert", some "application/json",
          "\x7b\"category\":\"Length\",\"from_unit\":\"km\",\"to_unit\":\"mm\",\"value\":1e308\x7d"⟩ =
        ⟨200, "\x7b\"success\":true,\"result\":\"inf\",\"value\":null\x7d"⟩ := by
  decide +kernel

end Reckoner.Http
