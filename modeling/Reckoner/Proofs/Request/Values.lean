/-
What the fields of a request take.

Every kind of field decides by the JSON value alone, for which only scalars come into question.
The readers judge a value as soon as they can and differ in how they tell what is wrong with it; but
which values they take, and for what, does not depend on where the value stands.
-/
import Reckoner.Proofs.Json.Skipping
import Reckoner.Proofs.Outcome
import Reckoner.Request.Decoder

-- Powers are the built-in ones, whatever other instances are in scope.
attribute [local instance (high)] instPowNat

namespace Reckoner

/-- The natural number below a bound that a JSON value is. -/
def Json.natBelow? (bound : ℕ) : Json → Option ℕ
  | number (.natural n) => if n < bound then some n else none
  | _ => none

/-- What a JSON value is for a field of a kind, if it may stand there. -/
def FieldKind.ofJson? : (kind : FieldKind) → Json → Option kind.Value
  | .text, .text s => some s
  | .optionalText, .null => some none
  | .optionalText, .text s => some (some s)
  | .number, x => (Request.numberOf x).toOption
  | .count, x => x.natBelow? (2 ^ (64 : Nat))
  | .smallCount, x => x.natBelow? (2 ^ (32 : Nat))
  | _, _ => none

namespace Json

variable {cs tail : List Char}

/-- No scalar starts as an array or object does. -/
theorem readScalar?_nested (strict : Bool) {c : Char} (hc : c = '[' ∨ c = '\x7b')
    (cs : List Char) : readScalar? strict (c :: cs) = none := by
  rcases hc with rfl | rfl <;> rfl

/-- What follows a value has no influence on the scalar it is, if it is one. -/
theorem readScalar?_append (strict : Bool) (h : IsValue cs) (htail : JsonNumeral.EndsBefore tail) :
    readScalar? strict (cs ++ tail) = (readScalar? strict cs).map fun r => (r.1, tail) := by
  rcases h.isScalar_or with h | ⟨c, part, rfl, hc⟩
  · exact (judges_readScalar? h).append strict htail
  · rw [List.cons_append, readScalar?_nested strict hc, readScalar?_nested strict hc]
    rfl

/-- What a scalar is can be told by its first character. -/
theorem head_of_readScalar? {strict : Bool} {x : Json} {rest : List Char}
    (h : readScalar? strict cs = some (x, rest)) : ∃ c tail, cs = c :: tail ∧
      ((x = .null ∧ c = 'n') ∨ (∃ b, x = .bool b) ∨ ((∃ s, x = .text s) ∧ c = '"') ∨
        ((∃ n, x = .number n) ∧ (c = '-' ∨ c.isDigit = true))) := by
  unfold readScalar? at h
  split at h
  · obtain ⟨r, -, heq⟩ := Option.map_eq_some_iff.mp h
    cases heq
    exact ⟨_, _, rfl, .inl ⟨rfl, rfl⟩⟩
  · obtain ⟨r, -, heq⟩ := Option.map_eq_some_iff.mp h
    cases heq
    exact ⟨_, _, rfl, .inr (.inl ⟨_, rfl⟩)⟩
  · obtain ⟨r, -, heq⟩ := Option.map_eq_some_iff.mp h
    cases heq
    exact ⟨_, _, rfl, .inr (.inl ⟨_, rfl⟩)⟩
  · obtain ⟨r, -, heq⟩ := Option.map_eq_some_iff.mp h
    cases heq
    exact ⟨_, _, rfl, .inr (.inr (.inl ⟨⟨_, rfl⟩, rfl⟩))⟩
  · obtain ⟨r, hr, heq⟩ := Option.map_eq_some_iff.mp h
    cases heq
    obtain ⟨_, hnumeral, -⟩ := Option.bind_eq_some_iff.mp hr
    obtain ⟨c, tail, hcs, hc⟩ := JsonNumeral.exists_cons_of_read? hnumeral
    exact ⟨c, tail, hcs, .inr (.inr (.inr ⟨⟨_, rfl⟩, hc⟩))⟩

end Json

namespace Request

open Json (readScalar? skipBlanks)
open Outcome (toOption_map)

/-- What a field of a kind takes from the front of a text. -/
def take? (kind : FieldKind) (cs : List Char) : Option (kind.Value × List Char) :=
  (readScalar? true cs).bind fun r => (kind.ofJson? r.1).map (·, r.2)

variable {cs : List Char}

theorem toOption_refuse {α : Type} (wanted : String) (cs : List Char) :
    (refuse wanted cs : Outcome α).toOption = none := by
  unfold refuse
  repeat' split
  all_goals rfl

theorem toOption_orSyntax {α : Type} (r : Option (α × List Char)) : (orSyntax r).toOption = r := by
  cases r <;> rfl

theorem toOption_readText (cs : List Char) : (readText cs).toOption = take? .text cs := by
  unfold readText take?
  split
  · rename_i tail
    rw [toOption_orSyntax]
    show _ = ((Json.readText? true ('"' :: tail)).map _).bind _
    cases Json.readText? true ('"' :: tail) <;> rfl
  · rename_i hquote
    rw [toOption_refuse, eq_comm, Option.bind_eq_none_iff]
    rintro ⟨x, rest⟩ hx
    obtain ⟨c, tail, rfl, hcases⟩ := Json.head_of_readScalar? hx
    obtain ⟨rfl, -⟩ | ⟨b, rfl⟩ | ⟨-, rfl⟩ | ⟨⟨n, rfl⟩, -⟩ := hcases
    · rfl
    · rfl
    · exact absurd rfl (hquote tail)
    · rfl

theorem toOption_readOptionalText (cs : List Char) :
    (readOptionalText cs).toOption = take? .optionalText cs := by
  unfold readOptionalText
  split
  · rename_i tail
    rw [toOption_orSyntax, take?]
    show _ = ((Json.after? "null" ('n' :: tail)).map _).bind _
    cases Json.after? "null" ('n' :: tail) <;> rfl
  · rename_i hn
    rw [toOption_map, toOption_readText, take?, take?]
    cases hx : readScalar? true cs with
    | none => rfl
    | some r =>
        obtain ⟨x, rest⟩ := r
        obtain ⟨c, tail, rfl, hcases⟩ := Json.head_of_readScalar? hx
        obtain ⟨-, rfl⟩ | ⟨b, rfl⟩ | ⟨⟨s, rfl⟩, -⟩ | ⟨⟨n, rfl⟩, -⟩ := hcases
        · exact absurd rfl (hn tail)
        · rfl
        · rfl
        · rfl

theorem toOption_readCount (wanted : String) (bound : ℕ) (cs : List Char) :
    (readCount wanted bound cs).toOption =
      (readScalar? true cs).bind fun r => (r.1.natBelow? bound).map (·, r.2) := by
  unfold readCount
  split
  · rename_i c tail
    have hstart : (c.isDigit || c == '-') = true ↔ c = '-' ∨ c.isDigit = true := by
      rw [Bool.or_eq_true, beq_iff_eq, or_comm]
    by_cases hc : c = '-' ∨ c.isDigit = true
    · rw [if_pos (hstart.mpr hc), Json.readScalar?_number true hc]
      cases Json.readNumber? true (c :: tail) with
      | none => rfl
      | some r =>
          obtain ⟨n, rest⟩ := r
          cases n with
          | natural n =>
              simp only [Json.natBelow?, Option.map_some, Option.bind_some]
              split <;> rfl
          | negative n => rfl
          | float v => rfl
    · rw [if_neg (mt hstart.mp hc), toOption_refuse, eq_comm, Option.bind_eq_none_iff]
      rintro ⟨x, rest⟩ hx
      obtain ⟨d, tail', hcons, hcases⟩ := Json.head_of_readScalar? hx
      obtain ⟨rfl, rfl⟩ := List.cons.inj hcons
      obtain ⟨rfl, -⟩ | ⟨b, rfl⟩ | ⟨⟨s, rfl⟩, -⟩ | ⟨-, hnumber⟩ := hcases
      · rfl
      · rfl
      · rfl
      · exact absurd hnumber hc
  · rfl

/-- What an array or an object starts with is not a number, nor does it stand for one. -/
theorem toOption_numberOf_of_readValue? {steps depth : ℕ} {c : Char} (hc : c = '[' ∨ c = '\x7b')
    {tail rest : List Char} {x : Json}
    (h : Json.readValue? true steps depth (c :: tail) = some (x, rest)) :
    (numberOf x).toOption = none := by
  cases depth with
  | zero =>
      rw [Json.readValue?, Json.readScalar?_nested true hc] at h
      cases h
  | succ depth =>
      rcases hc with rfl | rfl
      · rw [Json.readValue?] at h
        split at h
        · cases h
          rfl
        · obtain ⟨r, -, heq⟩ := Option.map_eq_some_iff.mp h
          cases heq
          rfl
      · rw [Json.readValue?] at h
        split at h
        · cases h
          rfl
        · obtain ⟨r, -, heq⟩ := Option.map_eq_some_iff.mp h
          cases heq
          rfl

theorem toOption_readNumber (depth : ℕ) (h : skipBlanks cs = cs) :
    (readNumber depth cs).toOption = take? .number cs := by
  rw [readNumber, Json.readFirst?, h, take?]
  cases cs with
  | nil => cases depth <;> rfl
  | cons c tail =>
      by_cases hc : c = '[' ∨ c = '\x7b'
      · rw [Json.readScalar?_nested true hc]
        cases hx : Json.readValue? true (c :: tail).length depth (c :: tail) with
        | none => rfl
        | some r =>
            dsimp only
            rw [toOption_map, toOption_numberOf_of_readValue? hc hx]
            rfl
      · rw [Json.readValue?_of_ne true _ depth (not_or.mp hc)]
        cases Json.readScalar? true (c :: tail) with
        | none => rfl
        | some r => exact toOption_map _ _

/-- A field takes what the JSON value at the front of a text is for its kind. -/
theorem toOption_readKind (depth : ℕ) (kind : FieldKind) (h : skipBlanks cs = cs) :
    (readKind depth kind cs).toOption = take? kind cs := by
  cases kind with
  | text => exact toOption_readText cs
  | optionalText => exact toOption_readOptionalText cs
  | number => exact toOption_readNumber depth h
  | count => exact toOption_readCount "usize" (2 ^ (64 : Nat)) cs
  | smallCount => exact toOption_readCount "u32" (2 ^ (32 : Nat)) cs

end Request

end Reckoner
