import ZeroCpu.Trace.JsonDiff
import ZeroCpu.Trace.Printed

/-!
# The fields of documents

What the functions that check, select and compare fields find in the value of a document. Fields
that are selected from a document are the value of a smaller document, and two documents with the
same layout that have the same value are the same document.
-/

namespace ZeroCpu.Json

open Library Assembler

/-! ## Looking up fields -/

/-- A key is found at the first member or behind it. -/
theorem Members.find?_cons (member : Str × JsonValue) (members : Members) (key : Str) :
    Members.find? (member :: members) key
      = if member.1 = key then some member.2 else members.find? key := by
  rw [Members.find?, List.find?_cons]
  by_cases hkey : member.1 = key
  · rw [if_pos hkey, beq_iff_eq.mpr hkey]
    rfl
  · rw [if_neg hkey, beq_eq_false_iff_ne.mpr hkey]
    rfl

/-- A new member is found, and the others as before. -/
theorem Members.find?_emplace {members : Members} {name : Str} (value : JsonValue)
    (h : members.find? name = none) (key : Str) :
    (members.emplace name value).find? key = if name = key then some value else members.find? key := by
  induction members with
  | nil => exact Members.find?_cons _ _ _
  | cons member members ih =>
    have hmember : member.1 ≠ name := Members.find?_eq_none.mp h member List.mem_cons_self
    have hmembers : Members.find? members name = none :=
      Members.find?_eq_none.mpr fun other hother =>
        Members.find?_eq_none.mp h other (List.mem_cons_of_mem _ hother)
    rw [Members.emplace, SortedMap.emplaceEntry]
    by_cases hlt : name < member.1
    · rw [if_pos hlt]
      exact Members.find?_cons _ _ _
    · rw [if_neg hlt, if_neg hmember.symm, Members.find?_cons, Members.find?_cons]
      have ih := ih hmembers
      rw [Members.emplace] at ih
      rw [ih]
      by_cases hkey : member.1 = key
      · rw [if_pos hkey, if_pos hkey, if_neg (hkey ▸ hmember.symm)]
      · rw [if_neg hkey, if_neg hkey]

namespace Document

/-- The values of the elements, one by one. -/
theorem valuesOf_eq_map (elements : List Document) : valuesOf elements = elements.map value := by
  induction elements with
  | nil => rfl
  | cons element elements ih => exact congrArg (element.value :: ·) ih

/-- The fields of a document behind those that are already in the map. -/
theorem find?_membersOf {members : Members} {fields : List (Str × Document)} (hkeys : (fields.map Prod.fst).Nodup)
    (hnew : ∀ name ∈ fields.map Prod.fst, members.find? name = none) (key : Str) :
    (membersOf members fields).find? key
      = ((fields.lookup key).map value).or (members.find? key) := by
  induction fields generalizing members with
  | nil => rfl
  | cons field fields ih =>
    obtain ⟨name, document⟩ := field
    obtain ⟨hname, hkeys⟩ := List.nodup_cons.mp hkeys
    have hfresh := hnew name List.mem_cons_self
    have hnew' : ∀ other ∈ fields.map Prod.fst,
        (members.emplace name document.value).find? other = none := by
      intro other hother
      apply find?_emplace_eq_none _ (hnew other (List.mem_cons_of_mem _ hother))
      rintro rfl
      exact hname hother
    rw [membersOf, ih hkeys hnew', Members.find?_emplace _ hfresh, List.lookup_cons]
    by_cases hkey : name = key
    · have hlookup : fields.lookup name = none := by
        rw [List.lookup_eq_none_iff]
        intro field hmem
        rw [bne_iff_ne]
        rintro rfl
        exact hname (List.mem_map.mpr ⟨field, hmem, rfl⟩)
      rw [← hkey, if_pos rfl, hlookup, beq_self_eq_true]
      rfl
    · rw [if_neg hkey, beq_eq_false_iff_ne.mpr (Ne.symm hkey)]

/-- The fields of a document are the entries of its map. -/
theorem find?_value {fields : List (Str × Document)} (hkeys : (fields.map Prod.fst).Nodup) (key : Str) :
    Members.find? (membersOf [] fields) key = (fields.lookup key).map value :=
  (find?_membersOf hkeys (fun _ _ => rfl) key).trans Option.or_none

/-- The fields with the given names, in the order of the names. -/
def select (fields : List (Str × Document)) (names : List Str) : List (Str × Document) :=
  names.filterMap fun name => (fields.lookup name).map (name, ·)

/-- A key that is there is found. -/
theorem exists_lookup {fields : List (Str × Document)} {name : Str} (h : name ∈ fields.map Prod.fst) :
    ∃ document, fields.lookup name = some document := by
  cases hlookup : fields.lookup name with
  | some document => exact ⟨document, rfl⟩
  | none =>
    obtain ⟨field, hmem, rfl⟩ := List.mem_map.mp h
    have := List.lookup_eq_none_iff.mp hlookup field hmem
    exact absurd rfl (bne_iff_ne.mp this)

section Keys

variable {keys : List Str} (hkeys : keys.Nodup) {fields : List (Str × Document)}
  (hfields : fields.map Prod.fst = keys)

include hkeys hfields

/-- A member is found under its key. -/
theorem requiredField_value {name : Str} {document : Document}
    (h : fields.lookup name = some document) :
    requiredField (Document.object fields).value name = .ok document.value := by
  have hfind := find?_value (hfields ▸ hkeys) name
  rw [h] at hfind
  rw [value, requiredField, hfind]
  rfl

theorem optionalField_value (name : Str) :
    optionalField (Document.object fields).value name = .ok ((fields.lookup name).map value) :=
  congrArg Except.ok (find?_value (hfields ▸ hkeys) name)

/-- Selecting fields from a document is selecting its members. -/
theorem emplaceFields_value {names : List Str} (h : ∀ name ∈ names, name ∈ keys) (members : Members) :
    emplaceFields (Document.object fields).value names members
      = .ok (membersOf members (select fields names)) := by
  induction names generalizing members with
  | nil => rfl
  | cons name names ih =>
    obtain ⟨hname, hnames⟩ := List.forall_mem_cons.mp h
    obtain ⟨document, hlookup⟩ := exists_lookup (hfields ▸ hname)
    have hselect : select fields (name :: names) = (name, document) :: select fields names :=
      List.filterMap_cons_some (by rw [hlookup]; rfl)
    rw [emplaceFields, requiredField_value hkeys hfields hlookup, ok_bind, ih hnames, hselect, membersOf]

/-- The selected fields of a document are a document. -/
theorem selectObjectFields_value {names : List Str} (h : ∀ name ∈ names, name ∈ keys) :
    selectObjectFields (Document.object fields).value names
      = .ok (Document.object (select fields names)).value := by
  rw [selectObjectFields, emplaceFields_value hkeys hfields h]
  rfl

end Keys

/-- A view of the elements of an array that are all documents of one kind. -/
theorem mapM_valuesOf {α : Type} {view : JsonValue → Except Str JsonValue}
    {document viewed : α → Document} {l : List α}
    (h : ∀ a ∈ l, view (document a).value = .ok (viewed a).value) :
    (valuesOf (l.map document)).mapM view = .ok (valuesOf (l.map viewed)) := by
  induction l with
  | nil => rfl
  | cons a l ih =>
    obtain ⟨ha, hl⟩ := List.forall_mem_cons.mp h
    rw [List.map_cons, valuesOf, List.mapM_cons, ha, ok_bind, ih hl]
    rfl

/-! ## Layouts -/

/-- Two documents whose objects have the same keys in the same order. -/
inductive Alike : Document → Document → Prop
  | boolean (value value' : Bool) : Alike (.boolean value) (.boolean value')
  | number (value value' : ℤ) : Alike (.number value) (.number value')
  | string (value value' : Str) : Alike (.string value) (.string value')
  | array {elements elements' : List Document}
      (h : ∀ element ∈ elements, ∀ element' ∈ elements', Alike element element') :
      Alike (.array elements) (.array elements')
  | object {fields fields' : List (Str × Document)} (keys : (fields.map Prod.fst).Nodup)
      (same : fields.map Prod.fst = fields'.map Prod.fst)
      (h : ∀ pair ∈ fields.zip fields', Alike pair.1.2 pair.2.2) :
      Alike (.object fields) (.object fields')

/-- Two objects with the same keys have one layout when their members have. -/
theorem Alike.of_keys {keys : List Str} (hkeys : keys.Nodup) {fields fields' : List (Str × Document)}
    (hfields : fields.map Prod.fst = keys) (hfields' : fields'.map Prod.fst = keys)
    (h : ∀ pair ∈ fields.zip fields', Alike pair.1.2 pair.2.2) :
    Alike (.object fields) (.object fields') :=
  .object (hfields ▸ hkeys) (hfields.trans hfields'.symm) h

/-- A member is found under its key when the keys are distinct. -/
theorem lookup_of_mem {fields : List (Str × Document)} (hkeys : (fields.map Prod.fst).Nodup)
    {field : Str × Document} (h : field ∈ fields) : fields.lookup field.1 = some field.2 := by
  induction fields with
  | nil => exact absurd h List.not_mem_nil
  | cons head fields ih =>
    obtain ⟨hhead, hkeys⟩ := List.nodup_cons.mp hkeys
    rw [List.lookup_cons]
    rcases List.mem_cons.mp h with rfl | hmem
    · rw [beq_self_eq_true]
    · have hne : field.1 ≠ head.1 := by
        intro heq
        exact hhead (List.mem_map.mpr ⟨field, hmem, heq⟩)
      rw [beq_eq_false_iff_ne.mpr hne]
      exact ih hkeys hmem

/-- Elements whose values are equal are equal when each value determines its element. -/
theorem eq_of_map_value {elements elements' : List Document}
    (h : ∀ element ∈ elements, ∀ element' ∈ elements',
      element.value = element'.value → element = element')
    (hvalues : elements.map value = elements'.map value) : elements = elements' := by
  have hlength : elements.length = elements'.length := by
    have := congrArg List.length hvalues
    rwa [List.length_map, List.length_map] at this
  apply List.ext_getElem hlength
  intro i hi hi'
  apply h _ (List.getElem_mem hi) _ (List.getElem_mem hi')
  have := List.getElem_of_eq hvalues (by rwa [List.length_map] : i < (elements.map value).length)
  rwa [List.getElem_map, List.getElem_map] at this

/-- Documents with the same layout are told apart by their values. -/
theorem Alike.eq_of_value {document document' : Document} (h : Alike document document')
    (hvalue : document.value = document'.value) : document = document' := by
  induction h with
  | boolean value value' => exact congrArg Document.boolean (JsonValue.boolean.inj hvalue)
  | number value value' => exact congrArg Document.number (JsonValue.number.inj hvalue)
  | string value value' => exact congrArg Document.string (JsonValue.string.inj hvalue)
  | @array elements elements' _ ih =>
    have hvalues := JsonValue.array.inj hvalue
    rw [valuesOf_eq_map, valuesOf_eq_map] at hvalues
    exact congrArg Document.array (eq_of_map_value ih hvalues)
  | @object fields fields' hkeys hsame _ ih =>
    have hmembers : membersOf [] fields = membersOf [] fields' := JsonValue.object.inj hvalue
    have hlength : fields.length = fields'.length := by
      have := congrArg List.length hsame
      rwa [List.length_map, List.length_map] at this
    refine congrArg Document.object (List.ext_getElem hlength fun i hi hi' => ?_)
    have hkey : fields[i].1 = fields'[i].1 := by
      have := List.getElem_of_eq hsame (by rwa [List.length_map] : i < (fields.map Prod.fst).length)
      rwa [List.getElem_map, List.getElem_map] at this
    -- both maps have under this key the value of the field
    have hfind := find?_value hkeys fields[i].1
    have hfind' := find?_value (hsame ▸ hkeys) fields'[i].1
    rw [lookup_of_mem hkeys (List.getElem_mem hi), hkey, hmembers, hfind',
      lookup_of_mem (hsame ▸ hkeys) (List.getElem_mem hi')] at hfind
    have hmem : (fields[i], fields'[i]) ∈ fields.zip fields' := by
      have hzip : i < (fields.zip fields').length := by
        rw [List.length_zip]
        omega
      rw [← List.getElem_zip (h := hzip)]
      exact List.getElem_mem hzip
    exact Prod.ext hkey (ih _ hmem (Option.some.inj hfind).symm)

/-! ## Comparisons -/

/-- The texts of two documents of one kind whose views are told apart by their values are compared
without an error, and are equal exactly when the views are the same. -/
theorem compareText_text {document document' view view' : Document} (h : document.Readable)
    (h' : document'.Readable) {kind : TraceDocumentKind}
    (hkind : ∀ label, validateTraceDocument document.value label = .ok kind)
    (hkind' : ∀ label, validateTraceDocument document'.value label = .ok kind)
    {options : TraceJsonDiffOptions} (hview : comparedView options document.value kind = .ok view.value)
    (hview' : comparedView options document'.value kind = .ok view'.value)
    (hvalue : view.value = view'.value → view = view') :
    ∃ result, compareText (document.text 0 ++ "\n") (document'.text 0 ++ "\n") options = .ok result ∧
      (result.equal = true ↔ view = view') := by
  have hparse := parse_text h
  have hparse' := parse_text h'
  have hwf := (parse_wellFormed hparse).comparedView hview
  have hwf' := (parse_wellFormed hparse').comparedView hview'
  refine ⟨_, compareText_eq_ok.mpr ⟨_, _, kind, _, _, hparse, hparse', hkind _, hkind' _, hview, hview',
    rfl⟩, ?_⟩
  rw [equal_makeResult hwf hwf']
  constructor
  · intro hsame
    exact hvalue (hsame.eq hwf hwf')
  · rintro rfl
    exact .refl hwf

end Document

end ZeroCpu.Json
