/-
Commands and endpoints that agree.

Calculating, operating on words and converting within a category can be asked for on the command
line and of the server.  Each of the two looks at the parts of what is asked in steps of its own,
but the steps are those of one computation, so both succeed or both fail, with one result or one
message.
-/
import Reckoner.Proofs.CommandLine.Keeping
import Reckoner.Proofs.Http.Response
import Reckoner.Proofs.Units.Lookup

namespace Reckoner

open Http Outcome

/-! ### Agreement -/

/-- A command and an answer of the server agree, where `Shows` tells how a result is printed. -/
structure Agree (Shows : String → String → Prop) (e : Execution) (a : HttpResponse) : Prop where
  /-- Both succeed, or none does. -/
  success : e.error = none ↔ a.status = 200
  /-- What is printed shows the result in the answer. -/
  result : e.error = none →
    ∃ result data, a = accepted (("result", .text result) :: data) ∧ Shows result e.printed
  /-- What is reported is the message in the answer, and nothing is printed. -/
  failure : e.error ≠ none →
    ∃ message, a = refused message ∧ e.printed = "" ∧ e.complaint = "error: " ++ message ++ "\n"

namespace Agree

variable {Shows : String → String → Prop} {e : Execution}

/-- A command agrees with a service if it does what the service is to do, and prints the result that
the service gives. -/
theorem of_service {s : Service} {q : s.Query} (text : s.Result → String)
    (hdata : ∀ v, ∃ data, s.data v = ("result", .text (text v)) :: data)
    (hok : ∀ v, s.operation q = .ok v → e.error = none ∧ Shows (text v) e.printed)
    (herror : ∀ error, s.operation q = .error error →
      e.error = some (s.cause error) ∧ e.printed = "") :
    Agree Shows e (s.answer q) := by
  cases hoperation : s.operation q with
  | ok v =>
      obtain ⟨he, hshows⟩ := hok v hoperation
      obtain ⟨data, hdata⟩ := hdata v
      rw [Service.answer_ok hoperation, hdata]
      exact ⟨⟨fun _ => rfl, fun _ => he⟩, fun _ => ⟨_, data, rfl, hshows⟩, fun h => absurd he h⟩
  | error error =>
      obtain ⟨he, hprinted⟩ := herror error hoperation
      have hne : e.error ≠ none := by
        rw [he]
        exact Option.some_ne_none _
      rw [Service.answer_error hoperation]
      refine ⟨⟨fun h => absurd h hne, nofun⟩, fun h => absurd h hne, fun _ => ?_⟩
      refine ⟨s.message error, rfl, hprinted, ?_⟩
      rw [Execution.complaint, he]
      rfl

end Agree

section Commands

variable {faults : Disk.Faults} {p : FilePath} {file : String} {d : Disk}

/-! ### Results on a line -/

/-- A result is printed on a line of its own. -/
def OnALine (result printed : String) : Prop := printed = result ++ "\n"

theorem Plan.lines_singleton (text : String) : lines [text] = text ++ "\n" := by
  simp [lines, String.join]

/-- A plan that prints the result of a service on a line agrees with the service. -/
theorem agree_ofExcept {s : Service} {q : s.Query} {plan : Plan} (text : s.Result → String)
    (hdata : ∀ v, ∃ data, s.data v = ("result", .text (text v)) :: data)
    (hplan : plan =
      .ofExcept ((Failure.lift s.cause (s.operation q)).map fun v => Plan.lines [text v])) :
    Agree OnALine (plan.carryOut faults p d) (s.answer q) := by
  refine .of_service text hdata ?_ ?_
  · intro v hv
    rw [hplan, hv]
    exact ⟨rfl, Plan.lines_singleton _⟩
  · intro error herror
    rw [hplan, herror]
    exact ⟨rfl, rfl⟩

theorem Plan.calculate_eq (expression : String) :
    calculate expression =
      .ofExcept ((Failure.lift .calculation (calculation.operation ⟨expression⟩)).map
        fun v => lines [Amount.text v]) := by
  simp only [calculate, calculation]

theorem Plan.prog_eq (lhs op : String) (rhs : Option String) (radix : String) (bits : Nat) :
    prog lhs op rhs radix bits =
      .ofExcept ((Failure.lift .words (wordOperation.operation ⟨lhs, op, rhs, radix, bits⟩)).map
        fun text => lines [text]) := by
  simp only [prog, wordOperation, map_lift, bind_assoc]

theorem agree_calculate (expression : String) :
    Agree OnALine ((Command.calculate expression).execute faults p file d)
      (calculation.answer ⟨expression⟩) :=
  agree_ofExcept Amount.text (fun _ => ⟨[], rfl⟩) (Plan.calculate_eq expression)

theorem agree_prog (lhs op : String) (rhs : Option String) (radix : String) (bits : Nat) :
    Agree OnALine ((Command.prog lhs op rhs radix bits).execute faults p file d)
      (wordOperation.answer ⟨lhs, op, rhs, radix, bits⟩) :=
  agree_ofExcept id (fun _ => ⟨[], rfl⟩) (Plan.prog_eq lhs op rhs radix bits)

/-! ### Results between units -/

/-- A result is printed as what a quantity comes to, with the labels of the units that were found
for the quantity and for the target. -/
def AsConversion (category : String) (q : Quantity) (target result printed : String) : Prop :=
  ∃ c i j label label', Category.resolve category = .ok c ∧
    c.resolveUnit q.unit = .ok i ∧ c.unitLabel? i = some label ∧
    c.resolveUnit target = .ok j ∧ c.unitLabel? j = some label' ∧
    printed = Amount.text q.value ++ " " ++ label ++ " = " ++ result ++ " " ++ label' ++ "\n"

variable {category quantity target : String} {q : Quantity} {s : Settings}

theorem Plan.locateUnit_some (s : Settings) (category unit : String) :
    locateUnit s (some category) unit = Failure.lift .conversion (do
      let c ← Category.resolve category
      let i ← c.resolveUnit unit
      return (c, i)) := by
  simp only [lift_bind]
  rfl

/-- The line that shows a conversion within a category is found in the steps of the conversion. -/
theorem Plan.convertLine_eq (hq : Quantity.read quantity = .ok q) :
    convertLine s quantity target (some category) = Failure.lift .conversion (do
      let c ← Category.resolve category
      let i ← c.resolveUnit q.unit
      let j ← c.resolveUnit target
      let v ← c.convertAt i j q.value
      return (c, Amount.text q.value ++ " " ++ label c i ++ " = " ++ Amount.text v ++ " " ++
        label c j)) := by
  have hread : readQuantity quantity = .ok q := by
    rw [readQuantity, hq]
    rfl
  rw [convertLine, hread, ok_bind, locateUnit_some]
  simp only [lift_bind, lift_pure, bind_assoc, pure_bind]

theorem Plan.convertLine_of_ok {v : Double} (hq : Quantity.read quantity = .ok q)
    (h : Reckoner.convert category q.unit target q.value = .ok v) :
    ∃ c i j, Category.resolve category = .ok c ∧ c.resolveUnit q.unit = .ok i ∧
      c.resolveUnit target = .ok j ∧
      convertLine s quantity target (some category) = .ok (c,
        Amount.text q.value ++ " " ++ label c i ++ " = " ++ Amount.text v ++ " " ++ label c j) := by
  rw [Reckoner.convert] at h
  obtain ⟨c, hc, h⟩ := bind_eq_ok.mp h
  rw [Category.convert] at h
  obtain ⟨i, hi, h⟩ := bind_eq_ok.mp h
  obtain ⟨j, hj, hv⟩ := bind_eq_ok.mp h
  refine ⟨c, i, j, hc, hi, hj, ?_⟩
  rw [convertLine_eq hq, hc, ok_bind, hi, ok_bind, hj, ok_bind, hv]
  rfl

theorem Plan.convertLine_of_error {e : ConversionError} (hq : Quantity.read quantity = .ok q)
    (h : Reckoner.convert category q.unit target q.value = .error e) :
    convertLine s quantity target (some category) = .error (.conversion e) := by
  rw [convertLine_eq hq]
  rw [Reckoner.convert] at h
  rcases bind_eq_error.mp h with hc | ⟨c, hc, h⟩
  · rw [hc]
    rfl
  rw [Category.convert] at h
  rw [hc, ok_bind]
  rcases bind_eq_error.mp h with hi | ⟨i, hi, h⟩
  · rw [hi]
    rfl
  rw [hi, ok_bind]
  rcases bind_eq_error.mp h with hj | ⟨j, hj, hv⟩
  · rw [hj]
    rfl
  · rw [hj, ok_bind, hv]
    rfl

/-- A unit that was found has a label. -/
theorem Plan.unitLabel?_of_resolveUnit {c : Category} {i : Nat} {text : String}
    (h : c.resolveUnit text = .ok i) : c.unitLabel? i = some (label c i) := by
  rw [label, Category.unitLabel?, List.getElem?_eq_getElem (Category.lt_of_resolveUnit h)]
  rfl

theorem Plan.printed_printAndRemember (s : Settings) (c : Category) (text : String) :
    (carryOut faults p d (printAndRemember s c text)).printed = text := by
  unfold printAndRemember
  cases s.remember? c <;> rfl

theorem agree_convert (hq : Quantity.read quantity = .ok q) :
    Agree (AsConversion category q target)
      ((Command.convert quantity target (some category)).execute faults p file d)
      (conversion.answer ⟨category, q.unit, target, q.value⟩) := by
  have hoperation : conversion.operation ⟨category, q.unit, target, q.value⟩ =
      Reckoner.convert category q.unit target q.value := by
    simp only [conversion]
  refine .of_service Amount.text (fun v => ⟨[("value", number v)], rfl⟩) ?_ ?_
  · intro v hv
    obtain ⟨c, i, j, hc, hi, hj, hline⟩ :=
      Plan.convertLine_of_ok (s := d.loadSettings p) hq (hoperation.symm.trans hv)
    rw [Command.execute, Plan.ofStore, Plan.ofCommand, Plan.convert, hline]
    refine ⟨Plan.error_printAndRemember _ c _, c, i, j, Plan.label c i, Plan.label c j, hc, hi,
      Plan.unitLabel?_of_resolveUnit hi, hj, Plan.unitLabel?_of_resolveUnit hj, ?_⟩
    rw [Plan.printed_printAndRemember, Plan.lines_singleton]
  · intro error herror
    have hline :=
      Plan.convertLine_of_error (s := d.loadSettings p) hq (hoperation.symm.trans herror)
    rw [Command.execute, Plan.ofStore, Plan.ofCommand, Plan.convert, hline]
    exact ⟨rfl, rfl⟩

/--
**The command line and the server agree.**  A command and a post of the same query, for calculating,
for operating on words or for converting within a category, both succeed or both fail.  What is
printed shows the result in the answer, and what is reported is the message in it.
-/
theorem execute_agrees (config : ServerConfig) (faults : Disk.Faults) (p : FilePath)
    (file : String) (d : Disk) :
    (∀ expression r, Posts .calculate CalculateRequest.read ⟨expression⟩ r →
      Agree OnALine ((Command.calculate expression).execute faults p file d)
        (respond config r)) ∧
    (∀ lhs op rhs radix bits r,
      Posts .programmer ProgrammerRequest.read ⟨lhs, op, rhs, radix, bits⟩ r →
      Agree OnALine ((Command.prog lhs op rhs radix bits).execute faults p file d)
        (respond config r)) ∧
    (∀ category quantity target q r, Quantity.read quantity = .ok q →
      Posts .convert ConvertRequest.read ⟨category, q.unit, target, q.value⟩ r →
      Agree (AsConversion category q target)
        ((Command.convert quantity target (some category)).execute faults p file d)
        (respond config r)) := by
  refine ⟨?_, ?_, ?_⟩
  · intro expression r h
    rw [respond_posts (s := calculation) rfl h]
    exact agree_calculate expression
  · intro lhs op rhs radix bits r h
    rw [respond_posts (s := wordOperation) rfl h]
    exact agree_prog lhs op rhs radix bits
  · intro category quantity target q r hq h
    rw [respond_posts (s := conversion) rfl h]
    exact agree_convert hq

/-- So it is for a division by zero, a sum that leaves its words, and a way in kilometres. -/
theorem execute_agrees_kilometres :
    let config := ServerConfig.listening "127.0.0.1" 5000
    let execute (command : Command) :=
      command.execute .none ["settings.json"] "settings.json" ⟨[]⟩
    let post (path body : String) : HttpRequest := ⟨"POST", path, some "application/json", body⟩
    Agree OnALine (execute (.calculate "1/0"))
      (respond config (post "/api/calculate" "\x7b\"expr\": \"1/0\"\x7d")) ∧
    Agree OnALine (execute (.prog "FF" "+" (some "1") "hex" 8))
      (respond config (post "/api/programmer"
        "[\"FF\", \"+\", \"1\", \"hex\", 8]")) ∧
    Agree (AsConversion "length" ⟨12.0, "km"⟩ "m") (execute (.convert "12km" "m" (some "length")))
      (respond config (post "/api/convert"
        "[\"length\", \"km\", \"m\", \"12\"]")) := by
  intro config execute post
  obtain ⟨hcalculate, hprog, hconvert⟩ :=
    execute_agrees config .none ["settings.json"] "settings.json" ⟨[]⟩
  refine ⟨hcalculate "1/0" _ ⟨rfl, ?_, ?_⟩, hprog "FF" "+" (some "1") "hex" 8 _ ⟨rfl, ?_, ?_⟩,
    hconvert "length" "12km" "m" ⟨12.0, "km"⟩ _ ?_ ⟨rfl, ?_, ?_⟩⟩
  all_goals decide +kernel

end Commands

end Reckoner
