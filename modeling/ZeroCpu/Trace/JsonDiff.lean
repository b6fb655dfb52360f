import Mathlib.Data.List.Zip
import ZeroCpu.Trace.Json

/-!
# Comparing trace documents

Reference: `include/zero_cpu/trace/TraceJsonDiff.hpp`, `src/trace/TraceJsonDiff.cpp`.

Two documents are compared as they are (strict) or through their architectural views, which keep
the fields that do not depend on how an execution is rendered. What a comparison is for is the
relation `Same`: arrays are compared element by element and objects as sets of keys with equal
values.
-/

namespace ZeroCpu.Json

open Library Assembler

/-! ## Fields -/

/-- The member of an object under a name it must have. -/
def requiredField (object : JsonValue) (name : Str) : Except Str JsonValue :=
  match object with
  | .object members =>
      match Members.find? members name with
      | some value => .ok value
      | none => .error ("Missing required trace JSON field: " ++ name)
  | _ => .error ("Expected JSON object while reading field: " ++ name)

/-- The member of an object under a name it may have. -/
def optionalField (object : JsonValue) (name : Str) : Except Str (Option JsonValue) :=
  match object with
  | .object members => .ok (Members.find? members name)
  | _ => .error ("Expected JSON object while reading optional field: " ++ name)

/-- A text under a name. -/
def requiredString (object : JsonValue) (name : Str) : Except Str Str := do
  let value ← requiredField object name
  match value with
  | .string text => .ok text
  | _ => .error ("Trace JSON field must be string: " ++ name)

/-- A number under a name. -/
def requiredNumber (object : JsonValue) (name : Str) : Except Str ℤ := do
  let value ← requiredField object name
  match value with
  | .number number => .ok number
  | _ => .error ("Trace JSON field must be integer: " ++ name)

/-- The member `array` of a value, empty unless it is an array. -/
def JsonValue.elements : JsonValue → List JsonValue
  | .array values => values
  | _ => []

/-- The value is an array. -/
def JsonValue.isArray : JsonValue → Bool
  | .array _ => true
  | _ => false

/-- The value is an object. -/
def JsonValue.isObject : JsonValue → Bool
  | .object _ => true
  | _ => false

/-! ## Document kinds -/

/-- The two schemas. -/
inductive TraceDocumentKind where
  | SingleProcess
  | MultiProcess
deriving DecidableEq, Repr

/-- A declared count that is not the size of the array it counts. -/
def Miscounts (declaredCount : ℤ) (values : JsonValue) : Prop :=
  declaredCount < 0 ∨ declaredCount.toNat ≠ values.elements.length

instance (declaredCount : ℤ) (values : JsonValue) : Decidable (Miscounts declaredCount values) :=
  inferInstanceAs (Decidable (_ ∨ _))

/-- The checks of a single-process trace. -/
def validateSingleProcess (root : JsonValue) (label : Str) (schemaVersion : ℤ) :
    Except Str TraceDocumentKind := do
  reject (schemaVersion ≠ 3) (label ++ " single-process trace uses unsupported schema version")
  let events ← requiredField root "events"
  reject (¬ events.isArray) (label ++ " trace events field must be an array")
  let declaredCount ← requiredNumber root "event_count"
  reject (Miscounts declaredCount events) (label ++ " trace event_count does not match events")
  pure .SingleProcess

/-- The checks of the optional section. -/
def validateSoftwareInterrupts (root : JsonValue) (label : Str) :
    Option JsonValue → Except Str Unit
  | none => .ok ()
  | some softwareInterrupts => do
      reject (¬ softwareInterrupts.isArray)
        (label ++ " multi-process software_interrupts field must be an array")
      let declaredCount ← requiredNumber root "software_interrupt_event_count"
      reject (Miscounts declaredCount softwareInterrupts)
        (label
          ++ " multi-process software_interrupt_event_count does not match software_interrupts")

/-- The checks of a multi-process trace. -/
def validateMultiProcess (root : JsonValue) (label : Str) (schemaVersion : ℤ) :
    Except Str TraceDocumentKind := do
  reject (schemaVersion ≠ 1) (label ++ " multi-process trace uses unsupported schema version")
  let executionTrace ← requiredField root "execution_trace"
  let contextSwitches ← requiredField root "context_switches"
  let processes ← requiredField root "processes"
  reject (¬ executionTrace.isArray ∨ ¬ contextSwitches.isArray ∨ ¬ processes.isArray)
    (label ++ " multi-process trace arrays are invalid")
  let executionCount ← requiredNumber root "execution_event_count"
  let contextSwitchCount ← requiredNumber root "context_switch_event_count"
  let processCount ← requiredNumber root "process_count"
  reject (Miscounts executionCount executionTrace)
    (label ++ " multi-process execution_event_count does not match execution_trace")
  reject (Miscounts contextSwitchCount contextSwitches)
    (label ++ " multi-process context_switch_event_count does not match context_switches")
  reject (Miscounts processCount processes)
    (label ++ " multi-process process_count does not match processes")
  let softwareInterrupts ← optionalField root "software_interrupts"
  let softwareInterruptCount ← optionalField root "software_interrupt_event_count"
  reject (softwareInterrupts.isNone ≠ softwareInterruptCount.isNone)
    (label ++ " multi-process software interrupt count/array fields must appear together")
  validateSoftwareInterrupts root label softwareInterrupts
  let _ ← requiredField root "invariants"
  pure .MultiProcess

/-- The schema of a document, after its checks. -/
def validateTraceDocument (root : JsonValue) (label : Str) : Except Str TraceDocumentKind := do
  reject (¬ root.isObject) (label ++ " trace JSON root must be an object")
  let schema ← requiredString root "schema"
  let schemaVersion ← requiredNumber root "schema_version"
  if schema = Str.ofString "zero_cpu_trace" then validateSingleProcess root label schemaVersion
  else if schema = Str.ofString "zero_cpu_multiprocess_trace" then
    validateMultiProcess root label schemaVersion
  else .error (label ++ " trace uses unsupported schema: " ++ schema)

/-! ## Architectural views -/

/-- Emplace the named fields of an object into a map, in the order of the names. -/
def emplaceFields (source : JsonValue) : List Str → Members → Except Str Members
  | [], selected => .ok selected
  | name :: names, selected => do
      let value ← requiredField source name
      emplaceFields source names (selected.emplace name value)

/-- An object with the named fields only. -/
def selectObjectFields (source : JsonValue) (names : List Str) : Except Str JsonValue := do
  reject (¬ source.isObject) (Str.ofString "Cannot select fields from a non-object JSON value")
  let selected ← emplaceFields source names []
  pure (.object selected)

/-- The fields of an event that show the machine. -/
def eventFields : List Str :=
  ["index", "pc_before", "pc_after", "sp_before", "sp_after", "instruction", "state_before",
    "state_after", "register_changes", "flag_changes", "memory_changes", "has_error", "error"]

/-- An event without its texts. -/
def traceEventArchitecturalView (event : JsonValue) : Except Str JsonValue :=
  selectObjectFields event eventFields

/-- A trace without its texts. -/
def singleProcessArchitecturalView (root : JsonValue) : Except Str JsonValue := do
  let events ← requiredField root "events"
  let selectedEvents ← events.elements.mapM traceEventArchitecturalView
  let selectedRoot ← emplaceFields root ["schema", "schema_version", "mode", "event_count"] []
  pure (.object (selectedRoot.emplace "events" (.array selectedEvents)))

/-- The fields of a violation that are no texts. -/
def violationFields : List Str := ["code", "lifecycle_step", "pid"]

/-- A report without its texts. -/
def multiProcessInvariantArchitecturalView (invariants : JsonValue) : Except Str JsonValue := do
  let violations ← requiredField invariants "violations"
  reject (¬ violations.isArray)
    (Str.ofString "Multi-process invariant violations must be an array")
  let selectedViolations ← violations.elements.mapM fun violation =>
    selectObjectFields violation violationFields
  let selected ← emplaceFields invariants ["passed", "violation_count"] []
  pure (.object (selected.emplace "violations" (.array selectedViolations)))

/-- An execution record without its texts. -/
def executionRecordView (record : JsonValue) : Except Str JsonValue := do
  let selected ← emplaceFields record ["lifecycle_step", "pid"] []
  let event ← requiredField record "event"
  let event ← traceEventArchitecturalView event
  pure (.object (selected.emplace "event" event))

/-- The fields of an interrupt record. -/
def softwareInterruptFields : List Str :=
  ["lifecycle_step", "pid", "vector", "has_service_number", "service_number", "has_argument0",
    "argument0", "has_argument1", "argument1", "has_status", "status", "has_result",
    "result_value", "disposition", "exit_code"]

/-- The fields of a context switch. -/
def contextSwitchFields : List Str :=
  ["lifecycle_step", "from_pid", "to_pid", "preempted", "caused_by_termination"]

/-- The fields of a process that do not depend on where its source is. -/
def processFields : List Str :=
  ["pid", "state", "has_exit_code", "exit_code", "termination_kind", "termination_message", "pc",
    "sp", "has_executable_image", "code_end_exclusive", "data_base", "data_size"]

/-- The counts of a run. -/
def rootFields : List Str :=
  ["schema", "schema_version", "mode", "runtime_state", "step_limit_reached", "lifecycle_steps",
    "process_count", "termination_count", "fault_count", "preemption_count",
    "context_switch_count", "execution_event_count", "context_switch_event_count"]

/-- The count of the optional section, by default zero. -/
def selectSoftwareInterruptCount (root : JsonValue) (softwareInterrupts : Option JsonValue) :
    Except Str JsonValue :=
  if softwareInterrupts.isSome then requiredField root "software_interrupt_event_count"
  else .ok (.number 0)

/-- A run without its texts. -/
def multiProcessArchitecturalView (root : JsonValue) : Except Str JsonValue := do
  let executionTrace ← requiredField root "execution_trace"
  let contextSwitches ← requiredField root "context_switches"
  let processes ← requiredField root "processes"
  let softwareInterrupts ← optionalField root "software_interrupts"
  let selectedExecution ← executionTrace.elements.mapM executionRecordView
  let selectedSoftwareInterrupts ←
    ((softwareInterrupts.map JsonValue.elements).getD []).mapM fun record =>
      selectObjectFields record softwareInterruptFields
  let selectedContextSwitches ← contextSwitches.elements.mapM fun record =>
    selectObjectFields record contextSwitchFields
  let selectedProcesses ← processes.elements.mapM fun process =>
    selectObjectFields process processFields
  let selectedRoot ← emplaceFields root rootFields []
  let softwareInterruptCount ← selectSoftwareInterruptCount root softwareInterrupts
  let invariants ← requiredField root "invariants"
  let invariants ← multiProcessInvariantArchitecturalView invariants
  pure (.object (selectedRoot
    |>.emplace "software_interrupt_event_count" softwareInterruptCount
    |>.emplace "invariants" invariants
    |>.emplace "execution_trace" (.array selectedExecution)
    |>.emplace "software_interrupts" (.array selectedSoftwareInterrupts)
    |>.emplace "context_switches" (.array selectedContextSwitches)
    |>.emplace "processes" (.array selectedProcesses)))

/-- The view of a document, by its schema. -/
def architecturalView (root : JsonValue) : TraceDocumentKind → Except Str JsonValue
  | .SingleProcess => singleProcessArchitecturalView root
  | .MultiProcess => multiProcessArchitecturalView root

/-! ## Comparison -/

/-- The name of a kind of value. -/
def typeName : JsonValue → Str
  | .null => "null"
  | .boolean _ => "boolean"
  | .number _ => "number"
  | .string _ => "string"
  | .array _ => "array"
  | .object _ => "object"

/-- The length up to which a text is shown. -/
def kMaxLength : ℕ := 120

/-- A value as a difference shows it. -/
def summarize : JsonValue → Str
  | .null => "null"
  | .boolean value => if value then "true" else "false"
  | .number value => intToStr value
  | .string text =>
      "\"" ++ (if text.length > kMaxLength then text.take kMaxLength ++ "..." else text) ++ "\""
  | .array values => "<array size=" ++ toStr values.length ++ ">"
  | .object members => "<object fields=" ++ toStr members.length ++ ">"

/-- A key that a path shows without quotes. -/
def isIdentifier : Str → Bool
  | [] => false
  | first :: rest => (isAlpha first || first == '_') && rest.all fun ch => isAlnum ch || ch == '_'

/-- The path of a member. -/
def childPath (parent key : Str) : Str :=
  if isIdentifier key then parent ++ "." ++ key
  else parent ++ "[\"" ++ key ++ "\"]"

/-- The differences found so far, of which only some are shown. -/
structure DiffAccumulator where
  count : ℕ := 0
  firstPath : Str := []
  firstExpected : Str := []
  firstActual : Str := []

/-- One more difference. -/
def DiffAccumulator.add (differences : DiffAccumulator) (path expected actual : Str) :
    DiffAccumulator :=
  if differences.firstPath = [] then ⟨differences.count + 1, path, expected, actual⟩
  else { differences with count := differences.count + 1 }

/-- The branch of `compareValues` for scalars of one type. -/
def compareScalars (equal : Bool) (expected actual : JsonValue) (path : Str)
    (differences : DiffAccumulator) : DiffAccumulator :=
  if equal then differences else differences.add path (summarize expected) (summarize actual)

/-- The second loop of `compareValues` over objects: the keys the expected object does not have. -/
def addUnexpected (expected : Members) (path : Str) (actual : Members)
    (differences : DiffAccumulator) : DiffAccumulator :=
  actual.foldl (fun differences entry =>
    if (expected.find? entry.1).isSome then differences
    else differences.add (childPath path entry.1) "<missing>" (summarize entry.2)) differences

mutual

/-- Collect the differences of two values. -/
def compareValues (expected actual : JsonValue) (path : Str) (differences : DiffAccumulator) :
    DiffAccumulator :=
  match expected, actual with
  | .null, .null => differences
  | .boolean e, .boolean a => compareScalars (e == a) (.boolean e) (.boolean a) path differences
  | .number e, .number a => compareScalars (e == a) (.number e) (.number a) path differences
  | .string e, .string a => compareScalars (e == a) (.string e) (.string a) path differences
  | .array e, .array a =>
      compareElements e a path 0 <|
        if e.length = a.length then differences
        else differences.add (path ++ ".length") (toStr e.length) (toStr a.length)
  | .object e, .object a => addUnexpected e path a (compareMembers e a path differences)
  | e, a =>
      differences.add path ("<" ++ typeName e ++ "> " ++ summarize e)
        ("<" ++ typeName a ++ "> " ++ summarize a)

/-- The loop over the common length of two arrays. -/
def compareElements (expected actual : List JsonValue) (path : Str) (i : ℕ)
    (differences : DiffAccumulator) : DiffAccumulator :=
  match expected, actual with
  | e :: expected, a :: actual =>
      compareElements expected actual path (i + 1)
        (compareValues e a (path ++ "[" ++ toStr i ++ "]") differences)
  | _, _ => differences

/-- The first loop over objects: the keys of the expected one. -/
def compareMembers (expected actual : Members) (path : Str) (differences : DiffAccumulator) :
    DiffAccumulator :=
  match expected with
  | [] => differences
  | (key, value) :: expected =>
      compareMembers expected actual path <|
        match actual.find? key with
        | none => differences.add (childPath path key) (summarize value) "<missing>"
        | some found => compareValues value found (childPath path key) differences

end

/-- Compare everything, or only the architectural view. -/
structure TraceJsonDiffOptions where
  strict : Bool := false

/-- The result of a comparison, with its first difference. -/
structure TraceJsonDiffResult where
  equal : Bool
  difference_count : ℕ
  first_path : Str
  expected_value : Str
  actual_value : Str
  message : Str
deriving DecidableEq

/-- What is compared of a document. -/
def comparedView (options : TraceJsonDiffOptions) (root : JsonValue) (kind : TraceDocumentKind) :
    Except Str JsonValue :=
  if options.strict then .ok root else architecturalView root kind

/-- The result for the differences found. -/
def makeResult (options : TraceJsonDiffOptions) (differences : DiffAccumulator) :
    TraceJsonDiffResult where
  equal := differences.count == 0
  difference_count := differences.count
  first_path := differences.firstPath
  expected_value := differences.firstExpected
  actual_value := differences.firstActual
  message :=
    if differences.count = 0 then
      if options.strict then "Strict trace match" else "Architectural trace match"
    else toStr differences.count ++ " trace difference(s); first at " ++ differences.firstPath

/-- Compare two traces. -/
def compareText (expectedJson actualJson : Str) (options : TraceJsonDiffOptions) :
    Except Str TraceJsonDiffResult := do
  let expectedRoot ← parse expectedJson
  let actualRoot ← parse actualJson
  let expectedKind ← validateTraceDocument expectedRoot "Expected"
  let actualKind ← validateTraceDocument actualRoot "Actual"
  reject (expectedKind ≠ actualKind) (Str.ofString "Trace schemas are not comparable")
  let expectedView ← comparedView options expectedRoot expectedKind
  let actualView ← comparedView options actualRoot actualKind
  pure (makeResult options (compareValues expectedView actualView "$" {}))

/-! ## How many differences there are -/

/-- The number of differences a comparison finds. -/
def differences (expected actual : JsonValue) : ℕ := (compareValues expected actual [] {}).count

/-- The number of keys of `members` that `others` does not have. -/
def missing (members others : Members) : ℕ :=
  members.countP fun member => (others.find? member.1).isNone

/-- A difference counts, whether it is shown or not. -/
@[simp] theorem DiffAccumulator.count_add (d : DiffAccumulator) (path expected actual : Str) :
    (d.add path expected actual).count = d.count + 1 := by
  unfold DiffAccumulator.add
  split <;> rfl

/-- Two scalars that differ are one difference. -/
theorem count_compareScalars (equal : Bool) (expected actual : JsonValue) (path : Str)
    (d : DiffAccumulator) :
    (compareScalars equal expected actual path d).count = d.count + if equal then 0 else 1 := by
  unfold compareScalars
  split <;> simp_all

/-- Each unexpected member is one difference. -/
theorem count_addUnexpected (expected : Members) (path : Str) (actual : Members)
    (d : DiffAccumulator) :
    (addUnexpected expected path actual d).count = d.count + missing actual expected := by
  unfold addUnexpected missing
  induction actual generalizing d with
  | nil => rfl
  | cons entry rest ih =>
    rw [List.foldl_cons, ih, List.countP_cons]
    cases expected.find? entry.1 with
    | none =>
      simp only [Option.isSome_none, Option.isNone_none, if_true, Bool.false_eq_true, if_false,
        DiffAccumulator.count_add]
      omega
    | some found => simp

/-- Comparing adds the number of differences, whatever was found before and under whatever path. -/
def CountsFrom (expected : JsonValue) : Prop :=
  ∀ actual path d, (compareValues expected actual path d).count
    = d.count + differences expected actual

/-- The differences of the elements add up. -/
theorem count_compareElements {expected : List JsonValue}
    (h : ∀ value ∈ expected, CountsFrom value) (actual : List JsonValue) (path : Str) (i : ℕ)
    (d : DiffAccumulator) :
    (compareElements expected actual path i d).count
      = d.count + ((expected.zip actual).map fun pair => differences pair.1 pair.2).sum := by
  induction expected generalizing actual i d with
  | nil => simp [compareElements]
  | cons e expected ih =>
    cases actual with
    | nil => simp [compareElements]
    | cons a actual =>
      rw [compareElements, ih fun value hmem => h value (List.mem_cons_of_mem _ hmem),
        h e List.mem_cons_self, List.zip_cons_cons, List.map_cons, List.sum_cons]
      exact Nat.add_assoc _ _ _

/-- What the first loop finds under the key of a member. -/
def memberDifferences (actual : Members) (member : Str × JsonValue) : ℕ :=
  match actual.find? member.1 with
  | none => 1
  | some found => differences member.2 found

/-- The differences of the members add up. -/
theorem count_compareMembers {expected : Members} (h : ∀ member ∈ expected, CountsFrom member.2)
    (actual : Members) (path : Str) (d : DiffAccumulator) :
    (compareMembers expected actual path d).count
      = d.count + (expected.map (memberDifferences actual)).sum := by
  induction expected generalizing d with
  | nil => simp [compareMembers]
  | cons member expected ih =>
    obtain ⟨key, value⟩ := member
    rw [compareMembers, ih fun member hmem => h member (List.mem_cons_of_mem _ hmem), List.map_cons,
      List.sum_cons, memberDifferences]
    cases actual.find? key with
    | none =>
      simp only [DiffAccumulator.count_add]
      omega
    | some found =>
      simp only [h (key, value) List.mem_cons_self found]
      omega

/-- Comparing adds the same number of differences to any that were found before. -/
theorem countsFrom {expected : JsonValue} (h : WellFormed expected) : CountsFrom expected := by
  -- By induction on the expected value; the accumulator's count only grows.
  induction h with
  | null =>
    intro actual path d
    cases actual <;> simp [compareValues, differences]
  | boolean value =>
    intro actual path d
    cases actual <;> simp [compareValues, differences, count_compareScalars]
  | number value =>
    intro actual path d
    cases actual <;> simp [compareValues, differences, count_compareScalars]
  | string value =>
    intro actual path d
    cases actual <;> simp [compareValues, differences, count_compareScalars]
  | array _ ih =>
    intro actual path d
    cases actual with
    | array values =>
      simp only [differences, compareValues, count_compareElements ih]
      split
      · simp
      · simp only [DiffAccumulator.count_add]
        omega
    | _ => simp [compareValues, differences]
  | object _ _ ih =>
    intro actual path d
    cases actual with
    | object members =>
      simp only [differences, compareValues, count_addUnexpected, count_compareMembers ih]
      omega
    | _ => simp [compareValues, differences]

/-- The differences of two arrays are those of their lengths and their elements. -/
theorem differences_array {expected : List JsonValue} (h : WellFormed (.array expected))
    (actual : List JsonValue) :
    differences (.array expected) (.array actual)
      = (if expected.length = actual.length then 0 else 1)
        + ((expected.zip actual).map fun pair => differences pair.1 pair.2).sum := by
  have hcount := count_compareElements (fun value hmem => countsFrom (h.element hmem)) actual
  show (compareValues _ _ _ _).count = _
  rw [compareValues, hcount]
  split <;> simp

/-- A member differs in its value or by being absent. -/
theorem sum_memberDifferences {actual : Members} (h : WellFormed (.object actual))
    (expected : Members) :
    (expected.map (memberDifferences actual)).sum
      = commonSum differences expected actual + missing expected actual := by
  unfold commonSum missing
  induction expected with
  | nil => rfl
  | cons member expected ih =>
    rw [List.map_cons, List.sum_cons, ih, List.map_cons, List.sum_cons, List.countP_cons,
      memberDifferences]
    cases hfind : Members.find? actual member.1 with
    | none =>
      rw [sum_under_key_of_not_mem _ (Members.find?_eq_none.mp hfind)]
      simp only [Option.isNone_none, if_true]
      omega
    | some found =>
      rw [sum_under_key_of_mem _ h.sorted (Members.mem_of_find? hfind)]
      simp only [Option.isNone_some, Bool.false_eq_true, if_false]
      omega

/-- The differences of two objects are those of their common members and the absent ones. -/
theorem differences_object {expected actual : Members} (he : WellFormed (.object expected))
    (ha : WellFormed (.object actual)) :
    differences (.object expected) (.object actual)
      = commonSum differences expected actual + missing expected actual
        + missing actual expected := by
  have hcount := count_compareMembers (fun member hmem => countsFrom (he.member hmem)) actual
  show (compareValues _ _ _ _).count = _
  rw [compareValues, count_addUnexpected, hcount, sum_memberDifferences ha]
  exact congrArg (· + _) (Nat.zero_add _)

/-- A comparison that does not descend finds one difference, unless the values are equal. -/
theorem differences_flat {expected actual : JsonValue}
    (harray : ¬ (expected.isArray ∧ actual.isArray))
    (hobject : ¬ (expected.isObject ∧ actual.isObject)) :
    (differences expected actual = 0 ∧ expected = actual) ∨
      (differences expected actual = 1 ∧ expected ≠ actual) := by
  -- Scalars of one kind differ by at most one; values of different kinds always differ.
  have hscalars : ∀ {α : Type} [BEq α] [LawfulBEq α] (make : α → JsonValue), Function.Injective make →
      ∀ e a : α, differences (make e) (make a)
        = (compareScalars (e == a) (make e) (make a) [] {}).count →
      (differences (make e) (make a) = 0 ∧ make e = make a) ∨
        (differences (make e) (make a) = 1 ∧ make e ≠ make a) := by
    intro α _ _ make hmake e a hcount
    rw [count_compareScalars] at hcount
    by_cases h : e = a
    · exact .inl ⟨by simpa [h] using hcount, congrArg make h⟩
    · exact .inr ⟨by simpa [h] using hcount, fun heq => h (hmake heq)⟩
  cases expected with
  | null => cases actual with
    | null => exact .inl ⟨rfl, rfl⟩
    | _ => exact .inr ⟨rfl, nofun⟩
  | boolean e => cases actual with
    | boolean a => exact hscalars _ (fun _ _ h => JsonValue.boolean.inj h) e a rfl
    | _ => exact .inr ⟨rfl, nofun⟩
  | number e => cases actual with
    | number a => exact hscalars _ (fun _ _ h => JsonValue.number.inj h) e a rfl
    | _ => exact .inr ⟨rfl, nofun⟩
  | string e => cases actual with
    | string a => exact hscalars _ (fun _ _ h => JsonValue.string.inj h) e a rfl
    | _ => exact .inr ⟨rfl, nofun⟩
  | array e => cases actual with
    | array a => exact absurd ⟨rfl, rfl⟩ harray
    | _ => exact .inr ⟨rfl, nofun⟩
  | object e => cases actual with
    | object a => exact absurd ⟨rfl, rfl⟩ hobject
    | _ => exact .inr ⟨rfl, nofun⟩

/-- Swapping the documents swaps the roles of the differences and keeps their number. -/
theorem differences_comm {expected actual : JsonValue} (he : WellFormed expected)
    (ha : WellFormed actual) : differences expected actual = differences actual expected := by
  -- outside of two arrays or two objects both directions count equality
  have hflat : ∀ {e a : JsonValue}, ¬ (e.isArray ∧ a.isArray) → ¬ (e.isObject ∧ a.isObject) →
      differences e a = differences a e := by
    intro e a harray hobject
    have h1 := differences_flat harray hobject
    have h2 := differences_flat (fun h => harray h.symm) (fun h => hobject h.symm)
    grind
  induction he generalizing actual with
  | null => exact hflat nofun nofun
  | boolean value => exact hflat nofun nofun
  | number value => exact hflat nofun nofun
  | string value => exact hflat nofun nofun
  | array hvalues ih =>
    cases ha with
    | array hactual =>
      rw [differences_array (.array hvalues), differences_array (.array hactual), ← List.zip_swap,
        List.map_map]
      congr 1
      · simp only [eq_comm]
      · refine congrArg List.sum (List.map_congr_left fun pair hpair => ?_)
        obtain ⟨hfst, hsnd⟩ := List.of_mem_zip hpair
        exact ih _ hsnd (hactual _ hfst)
    | _ => exact hflat nofun nofun
  | object sorted hmembers ih =>
    cases ha with
    | object sorted' hmembers' =>
      rw [differences_object (.object sorted hmembers) (.object sorted' hmembers'),
        differences_object (.object sorted' hmembers') (.object sorted hmembers), commonSum_comm,
        commonSum_congr fun x hx y hy => ih y hy (hmembers' x hx)]
      omega
    | _ => exact hflat nofun nofun

/-! ## The same value -/

/-- Two documents are the same JSON value: arrays element by element, objects as sets of keys with
the same values. -/
inductive Same : JsonValue → JsonValue → Prop
  | null : Same .null .null
  | boolean (value : Bool) : Same (.boolean value) (.boolean value)
  | number (value : ℤ) : Same (.number value) (.number value)
  | string (value : Str) : Same (.string value) (.string value)
  | array {expected actual : List JsonValue} (length : expected.length = actual.length)
      (elements : ∀ pair ∈ expected.zip actual, Same pair.1 pair.2) :
      Same (.array expected) (.array actual)
  | object {expected actual : Members}
      (keys : ∀ key, key ∈ expected.map Prod.fst ↔ key ∈ actual.map Prod.fst)
      (values : ∀ key e a, (key, e) ∈ expected → (key, a) ∈ actual → Same e a) :
      Same (.object expected) (.object actual)

/-- A well formed value is the same as itself. -/
theorem Same.refl {value : JsonValue} (h : WellFormed value) : Same value value := by
  induction h with
  | null => exact .null
  | boolean value => exact .boolean value
  | number value => exact .number value
  | string value => exact .string value
  | array _ ih =>
    refine .array rfl fun pair hpair => ?_
    obtain ⟨i, hi, rfl⟩ := List.mem_iff_getElem.mp hpair
    rw [List.getElem_zip]
    exact ih _ (List.getElem_mem _)
  | object sorted hmembers ih =>
    refine .object (fun _ => Iff.rfl) fun key e a he ha => ?_
    have hwf : WellFormed (.object _) := .object sorted hmembers
    obtain rfl : e = a := Option.some.inj
      ((hwf.find?_eq_some.mpr he).symm.trans (hwf.find?_eq_some.mpr ha))
    exact ih _ he

/-- Nothing is missing when every key is there. -/
theorem missing_eq_zero {members others : Members} :
    missing members others = 0 ↔ ∀ key ∈ members.map Prod.fst, key ∈ others.map Prod.fst := by
  rw [List.forall_mem_map]
  simp only [missing, List.countP_eq_zero, Option.isNone_iff_eq_none, Members.find?_eq_none,
    List.mem_map, not_forall, not_not, exists_prop]

/-- Two values that are no containers differ unless they are the same. -/
theorem Same.flat {expected actual : JsonValue} (he : WellFormed expected)
    (hexpected : ¬ expected.isArray ∧ ¬ expected.isObject) :
    differences expected actual = 0 ↔ Same expected actual := by
  have hsame : Same expected actual ↔ expected = actual := by
    constructor
    · intro h
      cases h with
      | array => exact absurd rfl hexpected.1
      | object => exact absurd rfl hexpected.2
      | _ => rfl
    · rintro rfl
      cases he with
      | null => exact .null
      | boolean value => exact .boolean value
      | number value => exact .number value
      | string value => exact .string value
      | array => exact absurd rfl hexpected.1
      | object => exact absurd rfl hexpected.2
  have := @differences_flat _ actual (fun h => hexpected.1 h.1) (fun h => hexpected.2 h.1)
  grind

/-- A comparison finds nothing exactly when the documents are the same value. -/
theorem differences_eq_zero_iff {expected actual : JsonValue} (he : WellFormed expected)
    (ha : WellFormed actual) : differences expected actual = 0 ↔ Same expected actual := by
  -- By induction on the expected value; a value of another kind is one difference.
  induction he generalizing actual with
  | null => exact Same.flat .null ⟨nofun, nofun⟩
  | boolean value => exact Same.flat (.boolean value) ⟨nofun, nofun⟩
  | number value => exact Same.flat (.number value) ⟨nofun, nofun⟩
  | string value => exact Same.flat (.string value) ⟨nofun, nofun⟩
  | array hvalues ih =>
    cases ha with
    | array hactual =>
      rw [differences_array (.array hvalues), Nat.add_eq_zero_iff,
        List.sum_eq_zero_iff_forall_eq_nat, List.forall_mem_map]
      -- Arrays of unequal length are one difference more than those of their common part.
      have hlength : ∀ n m : ℕ, (if n = m then 0 else 1) = 0 ↔ n = m := by
        intro n m
        split_ifs with h <;> simp [h]
      rw [hlength]
      constructor
      · rintro ⟨hlen, hzero⟩
        refine .array hlen fun pair hpair => ?_
        obtain ⟨hfst, hsnd⟩ := List.of_mem_zip hpair
        exact (ih _ hfst (hactual _ hsnd)).mp (hzero pair hpair)
      · intro h
        cases h with
        | array hlen hsame =>
          refine ⟨hlen, fun pair hpair => ?_⟩
          obtain ⟨hfst, hsnd⟩ := List.of_mem_zip hpair
          exact (ih _ hfst (hactual _ hsnd)).mpr (hsame pair hpair)
    | _ => exact ⟨fun h => absurd h Nat.one_ne_zero, nofun⟩
  | object sorted hmembers ih =>
    cases ha with
    | object sorted' hmembers' =>
      rw [differences_object (.object sorted hmembers) (.object sorted' hmembers'),
        Nat.add_eq_zero_iff, Nat.add_eq_zero_iff, commonSum_eq_zero, missing_eq_zero,
        missing_eq_zero]
      constructor
      · rintro ⟨⟨hvalues, hkeys⟩, hkeys'⟩
        exact .object (fun key => ⟨hkeys key, hkeys' key⟩) fun key e a hemem hamem =>
          (ih _ hemem (hmembers' _ hamem)).mp (hvalues key e a hemem hamem)
      · intro h
        cases h with
        | object hkeys hvalues =>
          refine ⟨⟨fun key e a hemem hamem => ?_, fun key => (hkeys key).mp⟩,
            fun key => (hkeys key).mpr⟩
          exact (ih _ hemem (hmembers' _ hamem)).mpr (hvalues key e a hemem hamem)
    | _ => exact ⟨fun h => absurd h Nat.one_ne_zero, nofun⟩

/-- A map is determined by what it holds: the same value is the same document. -/
theorem Same.eq {expected actual : JsonValue} (h : Same expected actual)
    (he : WellFormed expected) (ha : WellFormed actual) : expected = actual := by
  induction h with
  | null => rfl
  | boolean value => rfl
  | number value => rfl
  | string value => rfl
  | array length _ ih =>
    refine congrArg JsonValue.array (List.ext_getElem length fun i hi hi' => ?_)
    have hmem := List.getElem_mem (List.length_zip ▸ lt_min hi hi')
    rw [List.getElem_zip] at hmem
    exact ih _ hmem (he.element (List.getElem_mem _)) (ha.element (List.getElem_mem _))
  | @object expected actual keys _ ih =>
    -- an entry of one side has its key on the other, where the value is the same
    have hentry : ∀ entry, entry ∈ expected ↔ entry ∈ actual := by
      rintro ⟨key, value⟩
      constructor
      · intro hmem
        obtain ⟨⟨_, other⟩, hother, rfl⟩ :=
          List.mem_map.mp ((keys key).mp (List.mem_map_of_mem hmem))
        exact ih _ _ _ hmem hother (he.member hmem) (ha.member hother) ▸ hother
      · intro hmem
        obtain ⟨⟨_, other⟩, hother, rfl⟩ :=
          List.mem_map.mp ((keys key).mpr (List.mem_map_of_mem hmem))
        exact ih _ _ _ hother hmem (he.member hother) (ha.member hmem) ▸ hother
    exact congrArg JsonValue.object (List.Pairwise.eq_of_mem_iff he.sorted ha.sorted hentry)

/-! ## Views of well-formed documents -/

namespace WellFormed

/-- A member of a well formed object is well formed. -/
theorem requiredField {source value : JsonValue} {name : Str} (h : WellFormed source)
    (hfield : requiredField source name = .ok value) : WellFormed value := by
  unfold Json.requiredField at hfield
  split at hfield
  · split at hfield
    · next members value' hfind =>
      obtain rfl := Except.ok.inj hfield
      exact h.member (Members.mem_of_find? hfind)
    · cases hfield
  · cases hfield

/-- The elements of a well formed array are well formed. -/
theorem elements {source : JsonValue} (h : WellFormed source) :
    ∀ value ∈ source.elements, WellFormed value := by
  cases h with
  | array hvalues => exact hvalues
  | _ => exact fun _ hmem => absurd hmem List.not_mem_nil

/-- Selected fields are well formed. -/
theorem emplaceFields {source : JsonValue} (h : WellFormed source) {names : List Str}
    {selected result : Members} (hselected : WellFormed (.object selected))
    (hfields : emplaceFields source names selected = .ok result) : WellFormed (.object result) := by
  induction names generalizing selected with
  | nil =>
    obtain rfl := Except.ok.inj hfields
    exact hselected
  | cons name names ih =>
    obtain ⟨value, hvalue, hrest⟩ := Library.bind_eq_ok.mp hfields
    exact ih (hselected.emplace name (h.requiredField hvalue)) hrest

/-- A selection from a well formed object is well formed. -/
theorem selectObjectFields {source result : JsonValue} {names : List Str} (h : WellFormed source)
    (hselect : selectObjectFields source names = .ok result) : WellFormed result := by
  obtain ⟨_, -, hselect⟩ := Library.bind_eq_ok.mp hselect
  obtain ⟨selected, hfields, hresult⟩ := Library.bind_eq_ok.mp hselect
  obtain rfl := Except.ok.inj hresult
  exact h.emplaceFields .empty hfields

/-- An array of views of the elements of an array. -/
theorem mapM {view : JsonValue → Except Str JsonValue} {values results : List JsonValue}
    (h : ∀ value ∈ values, WellFormed value)
    (hview : ∀ value result, WellFormed value → view value = .ok result → WellFormed result)
    (hmap : values.mapM view = .ok results) : WellFormed (.array results) := by
  refine .array fun result hresult => ?_
  obtain ⟨value, hmem, hvalue⟩ := mem_of_mapM_ok hmap result hresult
  exact hview value result (h value hmem) hvalue

/-- The view of a well formed trace is well formed. -/
theorem singleProcessArchitecturalView {root view : JsonValue} (h : WellFormed root)
    (hview : singleProcessArchitecturalView root = .ok view) : WellFormed view := by
  obtain ⟨events, hevents, hview⟩ := Library.bind_eq_ok.mp hview
  obtain ⟨selectedEvents, hmap, hview⟩ := Library.bind_eq_ok.mp hview
  obtain ⟨selectedRoot, hfields, hview⟩ := Library.bind_eq_ok.mp hview
  obtain rfl := Except.ok.inj hview
  have harray := mapM (h.requiredField hevents).elements
    (fun _ _ hwf hselect => hwf.selectObjectFields hselect) hmap
  exact (h.emplaceFields .empty hfields).emplace _ harray

/-- The view of a well formed report is well formed. -/
theorem multiProcessInvariantArchitecturalView {invariants view : JsonValue}
    (h : WellFormed invariants)
    (hview : multiProcessInvariantArchitecturalView invariants = .ok view) : WellFormed view := by
  obtain ⟨violations, hviolations, hview⟩ := Library.bind_eq_ok.mp hview
  obtain ⟨_, -, hview⟩ := Library.bind_eq_ok.mp hview
  obtain ⟨selectedViolations, hmap, hview⟩ := Library.bind_eq_ok.mp hview
  obtain ⟨selected, hfields, hview⟩ := Library.bind_eq_ok.mp hview
  obtain rfl := Except.ok.inj hview
  have harray := mapM (h.requiredField hviolations).elements
    (fun _ _ hwf hselect => hwf.selectObjectFields hselect) hmap
  exact (h.emplaceFields .empty hfields).emplace _ harray

/-- The view of a well formed record is well formed. -/
theorem executionRecordView {record view : JsonValue} (h : WellFormed record)
    (hview : executionRecordView record = .ok view) : WellFormed view := by
  obtain ⟨selected, hfields, hview⟩ := Library.bind_eq_ok.mp hview
  obtain ⟨event, hevent, hview⟩ := Library.bind_eq_ok.mp hview
  obtain ⟨selectedEvent, hselect, hview⟩ := Library.bind_eq_ok.mp hview
  obtain rfl := Except.ok.inj hview
  exact (h.emplaceFields .empty hfields).emplace _ ((h.requiredField hevent).selectObjectFields hselect)

/-- The elements of an optional array are well formed. -/
theorem optionalElements {source : JsonValue} {name : Str} {value : Option JsonValue}
    (h : WellFormed source) (hfield : optionalField source name = .ok value) :
    ∀ element ∈ (value.map JsonValue.elements).getD [], WellFormed element := by
  unfold optionalField at hfield
  split at hfield
  · next members =>
    obtain rfl := Except.ok.inj hfield
    cases hfind : Members.find? members name with
    | none => exact fun _ hmem => absurd hmem List.not_mem_nil
    | some value => exact (h.member (Members.mem_of_find? hfind)).elements
  · cases hfield

/-- The view of a well formed run is well formed. -/
theorem multiProcessArchitecturalView {root view : JsonValue} (h : WellFormed root)
    (hview : multiProcessArchitecturalView root = .ok view) : WellFormed view := by
  have hselected : ∀ names value result, WellFormed value →
      Json.selectObjectFields value names = .ok result → WellFormed result :=
    fun _ _ _ hwf hselect => hwf.selectObjectFields hselect
  -- Every member of the view is selected from one of the document, and selecting keeps values well
  -- formed.
  obtain ⟨executionTrace, hexecutionTrace, hview⟩ := Library.bind_eq_ok.mp hview
  obtain ⟨contextSwitches, hcontextSwitches, hview⟩ := Library.bind_eq_ok.mp hview
  obtain ⟨processes, hprocesses, hview⟩ := Library.bind_eq_ok.mp hview
  obtain ⟨softwareInterrupts, hsoftwareInterrupts, hview⟩ := Library.bind_eq_ok.mp hview
  obtain ⟨selectedExecution, hexecution, hview⟩ := Library.bind_eq_ok.mp hview
  obtain ⟨selectedSoftwareInterrupts, hsoftware, hview⟩ := Library.bind_eq_ok.mp hview
  obtain ⟨selectedContextSwitches, hswitches, hview⟩ := Library.bind_eq_ok.mp hview
  obtain ⟨selectedProcesses, hselectedProcesses, hview⟩ := Library.bind_eq_ok.mp hview
  obtain ⟨selectedRoot, hfields, hview⟩ := Library.bind_eq_ok.mp hview
  obtain ⟨softwareInterruptCount, hcount, hview⟩ := Library.bind_eq_ok.mp hview
  obtain ⟨invariants, hinvariants, hview⟩ := Library.bind_eq_ok.mp hview
  obtain ⟨selectedInvariants, hselectedInvariants, hview⟩ := Library.bind_eq_ok.mp hview
  obtain rfl := Except.ok.inj hview
  have hcounted : WellFormed softwareInterruptCount := by
    unfold selectSoftwareInterruptCount at hcount
    split at hcount
    · exact h.requiredField hcount
    · exact Except.ok.inj hcount ▸ .number 0
  refine ((((((h.emplaceFields .empty hfields).emplace _ hcounted).emplace _ ?_).emplace _ ?_).emplace
    _ ?_).emplace _ ?_).emplace _ ?_
  · exact (h.requiredField hinvariants).multiProcessInvariantArchitecturalView hselectedInvariants
  · exact mapM (h.requiredField hexecutionTrace).elements
      (fun _ _ hwf hrecord => hwf.executionRecordView hrecord) hexecution
  · exact mapM (h.optionalElements hsoftwareInterrupts) (hselected _) hsoftware
  · exact mapM (h.requiredField hcontextSwitches).elements (hselected _) hswitches
  · exact mapM (h.requiredField hprocesses).elements (hselected _) hselectedProcesses

/-- What is compared is well formed. -/
theorem comparedView {options : TraceJsonDiffOptions} {root view : JsonValue}
    {kind : TraceDocumentKind} (h : WellFormed root)
    (hview : comparedView options root kind = .ok view) : WellFormed view := by
  unfold Json.comparedView at hview
  split at hview
  · exact Except.ok.inj hview ▸ h
  · cases kind with
    | SingleProcess => exact h.singleProcessArchitecturalView hview
    | MultiProcess => exact h.multiProcessArchitecturalView hview

end WellFormed

/-! ## Exactness -/

/-- The label stands in messages only. -/
theorem validateTraceDocument_label {root : JsonValue} {label : Str} {kind : TraceDocumentKind}
    (h : validateTraceDocument root label = .ok kind) (label' : Str) :
    validateTraceDocument root label' = .ok kind := by
  -- The label is part of the errors only.
  have hsingle : ∀ version, validateSingleProcess root label version = .ok kind →
      validateSingleProcess root label' version = .ok kind := by
    intro version
    simp only [validateSingleProcess, Library.bind_eq_ok, reject_eq_ok]
    exact id
  have hsoftware : ∀ value u, validateSoftwareInterrupts root label value = .ok u ↔
      validateSoftwareInterrupts root label' value = .ok u := by
    intro value u
    cases value with
    | none => exact Iff.rfl
    | some value => simp only [validateSoftwareInterrupts, Library.bind_eq_ok, reject_eq_ok]
  have hmulti : ∀ version, validateMultiProcess root label version = .ok kind →
      validateMultiProcess root label' version = .ok kind := by
    intro version
    simp only [validateMultiProcess, Library.bind_eq_ok, reject_eq_ok, hsoftware]
    exact id
  obtain ⟨_, hobject, h⟩ := Library.bind_eq_ok.mp h
  obtain ⟨schema, hschema, h⟩ := Library.bind_eq_ok.mp h
  obtain ⟨version, hversion, h⟩ := Library.bind_eq_ok.mp h
  refine Library.bind_eq_ok.mpr ⟨(), reject_of_not (reject_eq_ok.mp hobject), ?_⟩
  refine Library.bind_eq_ok.mpr ⟨schema, hschema, Library.bind_eq_ok.mpr ⟨version, hversion, ?_⟩⟩
  by_cases hs : schema = Str.ofString "zero_cpu_trace"
  · rw [if_pos hs] at h ⊢
    exact hsingle version h
  · rw [if_neg hs] at h ⊢
    by_cases hm : schema = Str.ofString "zero_cpu_multiprocess_trace"
    · rw [if_pos hm] at h ⊢
      exact hmulti version h
    · rw [if_neg hm] at h
      cases h

/-- What a comparison that does not throw has parsed, checked and compared. -/
theorem compareText_eq_ok {expectedJson actualJson : Str} {options : TraceJsonDiffOptions}
    {result : TraceJsonDiffResult} :
    compareText expectedJson actualJson options = .ok result ↔
      ∃ expected actual kind expectedView actualView,
        parse expectedJson = .ok expected ∧ parse actualJson = .ok actual ∧
        validateTraceDocument expected "Expected" = .ok kind ∧
        validateTraceDocument actual "Actual" = .ok kind ∧
        comparedView options expected kind = .ok expectedView ∧
        comparedView options actual kind = .ok actualView ∧
        result = makeResult options (compareValues expectedView actualView "$" {}) := by
  simp only [compareText, Library.bind_eq_ok, reject_eq_ok, not_not]
  constructor
  · rintro ⟨expected, he, actual, ha, kind, hke, _, hka, _, rfl, ev, hev, av, hav, hresult⟩
    exact ⟨expected, actual, kind, ev, av, he, ha, hke, hka, hev, hav, (Except.ok.inj hresult).symm⟩
  · rintro ⟨expected, actual, kind, ev, av, he, ha, hke, hka, hev, hav, rfl⟩
    exact ⟨expected, he, actual, ha, kind, hke, kind, hka, (), rfl, ev, hev, av, hav, rfl⟩

/-- The result counts every difference. -/
theorem count_makeResult {options : TraceJsonDiffOptions} {expected actual : JsonValue}
    (h : WellFormed expected) :
    (makeResult options (compareValues expected actual "$" {})).difference_count
      = differences expected actual :=
  (countsFrom h actual _ _).trans (Nat.zero_add _)

/-- A comparison says equal exactly for the same value. -/
theorem equal_makeResult {options : TraceJsonDiffOptions} {expected actual : JsonValue}
    (he : WellFormed expected) (ha : WellFormed actual) :
    (makeResult options (compareValues expected actual "$" {})).equal = true
      ↔ Same expected actual := by
  rw [← differences_eq_zero_iff he ha, ← @count_makeResult options _ _ he]
  exact beq_iff_eq

/-- A comparison that does not throw says equal exactly when what it compares is the same JSON
value, counts as many differences the other way round, and finds none between the views of
documents that are strictly equal. -/
theorem compareText_exact {expectedJson actualJson : Str} {options : TraceJsonDiffOptions}
    {result : TraceJsonDiffResult}
    (h : compareText expectedJson actualJson options = .ok result) :
    ∃ expected actual kind,
      parse expectedJson = .ok expected ∧ parse actualJson = .ok actual ∧
      validateTraceDocument expected "Expected" = .ok kind ∧
      validateTraceDocument actual "Actual" = .ok kind ∧
      (options.strict = true → (result.equal = true ↔ Same expected actual)) ∧
      (options.strict = false → ∃ expectedView actualView,
        architecturalView expected kind = .ok expectedView ∧
        architecturalView actual kind = .ok actualView ∧
        (result.equal = true ↔ Same expectedView actualView)) ∧
      (∃ swapped, compareText actualJson expectedJson options = .ok swapped ∧
        swapped.difference_count = result.difference_count) ∧
      ∀ strictResult architecturalResult,
        compareText expectedJson actualJson ⟨true⟩ = .ok strictResult →
        compareText expectedJson actualJson ⟨false⟩ = .ok architecturalResult →
        strictResult.equal = true → architecturalResult.equal = true := by
  obtain ⟨expected, actual, kind, expectedView, actualView, he, ha, hke, hka, hve, hva, rfl⟩ :=
    compareText_eq_ok.mp h
  have hwfe := parse_wellFormed he
  have hwfa := parse_wellFormed ha
  have hviewe := hwfe.comparedView hve
  have hviewa := hwfa.comparedView hva
  refine ⟨expected, actual, kind, he, ha, hke, hka, fun hstrict => ?_, fun hstrict => ?_, ?_, ?_⟩
  · obtain rfl : expected = expectedView := by simpa [comparedView, hstrict] using hve
    obtain rfl : actual = actualView := by simpa [comparedView, hstrict] using hva
    exact equal_makeResult hviewe hviewa
  · have hve' : architecturalView expected kind = .ok expectedView := by
      simpa [comparedView, hstrict] using hve
    have hva' : architecturalView actual kind = .ok actualView := by
      simpa [comparedView, hstrict] using hva
    exact ⟨expectedView, actualView, hve', hva', equal_makeResult hviewe hviewa⟩
  · refine ⟨_, compareText_eq_ok.mpr ⟨actual, expected, kind, actualView, expectedView, ha, he,
      validateTraceDocument_label hka _, validateTraceDocument_label hke _, hva, hve, rfl⟩, ?_⟩
    rw [count_makeResult hviewa, count_makeResult hviewe, differences_comm hviewa hviewe]
  · intro strictResult architecturalResult hs har hequal
    -- strictly equal documents are equal, and so are their views
    obtain ⟨_, _, _, _, _, hpe, hpa, -, -, hse, hsa, rfl⟩ := compareText_eq_ok.mp hs
    obtain rfl := Except.ok.inj (he.symm.trans hpe)
    obtain rfl := Except.ok.inj (ha.symm.trans hpa)
    obtain rfl := Except.ok.inj hse
    obtain rfl := Except.ok.inj hsa
    obtain rfl := ((equal_makeResult hwfe hwfa).mp hequal).eq hwfe hwfa
    obtain ⟨_, _, _, view, _, hpe, hpa, -, -, hve, hva, rfl⟩ := compareText_eq_ok.mp har
    obtain rfl := Except.ok.inj (he.symm.trans hpe)
    obtain rfl := Except.ok.inj (ha.symm.trans hpa)
    obtain rfl := Except.ok.inj (hve.symm.trans hva)
    have hview := hwfe.comparedView hve
    exact (equal_makeResult hview hview).mpr (.refl hview)

/-- A trace of one event, with the given PC afterwards and the given text of the stage, which is
for people only. -/
def stepTrace (pcAfter stage : Str) : Str :=
  "\x7b\"schema\":\"zero_cpu_trace\", \"schema_version\":3, \"mode\":\"m\", \"event_count\":1,
    \"events\":[\x7b\"index\":0, \"pc_before\":0, \"pc_after\":" ++ pcAfter ++ ", \"sp_before\":8,
    \"sp_after\":8, \"instruction\":\"NOP\", \"state_before\":\x7b\x7d, \"state_after\":\x7b\x7d,
    \"register_changes\":[], \"flag_changes\":[], \"memory_changes\":[], \"stage\":\"" ++ stage ++ "\",
    \"has_error\":false, \"error\":\"\"\x7d]\x7d"

/-- Two traces with another PC and another stage: both differences count in the strict mode, that
of the PC in the architectural one. -/
theorem compareText_exact_steps :
    let expected := stepTrace "1" "fetch"
    let actual := stepTrace "2" "execute"
    (∃ swapped, compareText actual expected ⟨true⟩ = .ok swapped ∧ swapped.difference_count = 2)
    ∧ (∃ swapped, compareText actual expected ⟨false⟩ = .ok swapped ∧ swapped.difference_count = 1)
    ∧ ∃ value value', parse expected = .ok value ∧ parse actual = .ok value' ∧ ¬ Same value value' := by
  intro expected actual
  have hstrict : (compareText expected actual ⟨true⟩).toOption.map (fun result =>
      (result.equal, result.difference_count)) = some (false, 2) := by decide +kernel
  have hview : (compareText expected actual ⟨false⟩).toOption.map (fun result =>
      result.difference_count) = some 1 := by decide +kernel
  cases hs : compareText expected actual ⟨true⟩ with
  | error e =>
    rw [hs] at hstrict
    cases hstrict
  | ok strictResult =>
    cases hv : compareText expected actual ⟨false⟩ with
    | error e =>
      rw [hv] at hview
      cases hview
    | ok viewResult =>
      rw [hs] at hstrict
      rw [hv] at hview
      obtain ⟨hdiffer, htwo⟩ := Prod.ext_iff.mp (Option.some.inj hstrict)
      obtain ⟨value, value', _, hvalue, hvalue', -, -, hsame, -, ⟨swapped, hswapped, hcount⟩, -⟩ :=
        compareText_exact hs
      obtain ⟨_, _, _, -, -, -, -, -, -, ⟨swapped', hswapped', hcount'⟩, -⟩ := compareText_exact hv
      exact ⟨⟨swapped, hswapped, hcount.trans htwo⟩,
        ⟨swapped', hswapped', hcount'.trans (Option.some.inj hview)⟩, value, value', hvalue, hvalue',
        fun h => Bool.false_ne_true (hdiffer.symm.trans ((hsame rfl).mpr h))⟩

end ZeroCpu.Json
