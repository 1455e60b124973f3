import Petalflow.Tool.Validate

open petalflow.core List

namespace petalflow.tool

structure PairDiagnostic extends Diagnostic where
  sourceField : String
  targetField : String
  sourceType : String
  targetType : String
deriving DecidableEq, Repr

structure FieldPair where
  sourceField : String
  sourceType : String
  targetField : String
  targetType : String

def FieldPair.report (pair : FieldPair) (field code : String) (severity : Severity) (message : String) :
    List PairDiagnostic :=
  [{ field, code, severity, message, sourceField := pair.sourceField, targetField := pair.targetField,
     sourceType := pair.sourceType, targetType := pair.targetType }]

mutual

def validateCompatibility (sourceField : String) (source : FieldSpec) (targetField : String) :
    FieldSpec → List PairDiagnostic
  | { type, items, properties, .. } =>
    let pair : FieldPair := { sourceField, sourceType := source.type, targetField, targetType := type }
    if !isValidV1Type source.type then
      pair.report (sourceField ++ ".type") "INVALID_SOURCE_TYPE" .error
        s!"Source field has unsupported type {quote source.type}"
    else if !isValidV1Type type then
      pair.report (targetField ++ ".type") "INVALID_TARGET_TYPE" .error
        s!"Target field has unsupported type {quote type}"
    else if source.type = "any" ∨ type = "any" then
      pair.report targetField "TYPE_ANY_BYPASS" .warning
        "Type compatibility check bypassed because one side is typed as any"
    else if source.type ≠ type then
      pair.report targetField "TYPE_MISMATCH" .error
        (s!"Type mismatch: source {quote sourceField} ({source.type}) is not compatible with target " ++
          s!"{quote targetField} ({type})")
    else if type = "array" then
      match source.items with
      | none =>
        pair.report (sourceField ++ ".items") "ARRAY_ITEMS_REQUIRED" .error "Source array type must define items"
      | some sourceItems => validateItemsCompatibility pair sourceItems items
    else if type = "object" then
      -- an object without declared properties is accepted on either side
      if source.properties.isEmpty || properties.isEmpty then []
      else
        ((validatePropertiesCompatibility pair source.properties properties).insertionSort fun a b => a.1 ≤ b.1).flatMap
          Prod.snd
    else []

def validateItemsCompatibility (pair : FieldPair) (sourceItems : FieldSpec) : Option FieldSpec → List PairDiagnostic
  | none =>
    pair.report (pair.targetField ++ ".items") "ARRAY_ITEMS_REQUIRED" .error "Target array type must define items"
  | some targetItems =>
    validateCompatibility (pair.sourceField ++ "[]") sourceItems (pair.targetField ++ "[]") targetItems

def validatePropertiesCompatibility (pair : FieldPair) (sourceProperties : List (String × FieldSpec)) :
    List (String × FieldSpec) → List (String × List PairDiagnostic)
  | [] => []
  | (name, targetProp) :: rest =>
    (name, match sourceProperties.lookup name with
      | none =>
        if targetProp.required then
          { pair with targetField := pair.targetField ++ "." ++ name, targetType := targetProp.type }.report
            (pair.targetField ++ "." ++ name) "OBJECT_PROPERTY_MISSING" .error
            s!"Target requires property {quote name} which is missing from source object"
        else []
      | some sourceProp =>
        validateCompatibility (pair.sourceField ++ "." ++ name) sourceProp
          (pair.targetField ++ "." ++ name) targetProp) ::
      validatePropertiesCompatibility pair sourceProperties rest

end

variable (scalar : String → Value → Bool)

mutual

/-- The value has the declared type, and so do its elements and its declared
properties. What the scalar types hold is left to `scalar`. -/
def conforms : FieldSpec → Value → Bool
  | { type, items, properties, .. }, value =>
    if type = "any" then true
    else if type = "array" then
      match value with
      | .list elems => elems.all fun elem => conformsItems items elem
      | _ => false
    else if type = "object" then
      match value with
      | .map entries => conformsProperties properties entries
      | _ => false
    else scalar type value

def conformsItems : Option FieldSpec → Value → Bool
  | none, _ => true
  | some spec, elem => conforms spec elem

def conformsProperties : List (String × FieldSpec) → Vars → Bool
  | [], _ => true
  | (name, spec) :: rest, entries =>
    (match entries.lookup name with
      | none => !spec.required
      | some value => conforms spec value) &&
      conformsProperties rest entries

end

mutual

def FieldSpec.everywhere (p : FieldSpec → Bool) : FieldSpec → Bool
  | ⟨type, required, description, default, sensitive, items, properties⟩ =>
    p ⟨type, required, description, default, sensitive, items, properties⟩ && itemsEverywhere p items &&
      propertiesEverywhere p properties

def itemsEverywhere (p : FieldSpec → Bool) : Option FieldSpec → Bool
  | none => true
  | some spec => spec.everywhere p

def propertiesEverywhere (p : FieldSpec → Bool) : List (String × FieldSpec) → Bool
  | [] => true
  | (_, spec) :: rest => spec.everywhere p && propertiesEverywhere p rest

end

/-- The type `any` does not occur. -/
def FieldSpec.anyFree (spec : FieldSpec) : Bool := spec.everywhere fun part => part.type ≠ "any"

/-- Properties have distinct names, as the keys of a map. -/
def FieldSpec.keyed (spec : FieldSpec) : Bool := spec.everywhere fun part => (part.properties.map Prod.fst).Nodup

/-- A valid specification in which `any` does not occur. -/
structure FieldSpec.Plain (spec : FieldSpec) : Prop where
  valid : ∃ path, validateFieldSpec path spec = []
  anyFree : spec.anyFree = true
  keyed : spec.keyed = true

mutual

/-- Types are the same, and what the target requires is declared by a source that declares properties. -/
def FieldSpec.agrees (source : FieldSpec) : FieldSpec → Bool
  | { type, items, properties, .. } =>
    source.type = type &&
      if type = "array" then
        match source.items with
        | none => false
        | some sourceItems => itemsAgree sourceItems items
      else if type = "object" then source.properties.isEmpty || propertiesAgree source.properties properties
      else true

def itemsAgree (sourceItems : FieldSpec) : Option FieldSpec → Bool
  | none => false
  | some targetItems => sourceItems.agrees targetItems

def propertiesAgree (sourceProperties : List (String × FieldSpec)) : List (String × FieldSpec) → Bool
  | [] => true
  | (name, targetProp) :: rest =>
    (match sourceProperties.lookup name with
      | none => !targetProp.required
      | some sourceProp => sourceProp.agrees targetProp) &&
      propertiesAgree sourceProperties rest

end

mutual

/-- The source declares every property that the target declares, and as required
when the target requires it, in the whole of both specifications. -/
def FieldSpec.declares (source : FieldSpec) : FieldSpec → Bool
  | { type, items, properties, .. } =>
    if type = "array" then
      match source.items with
      | none => false
      | some sourceItems => itemsDeclare sourceItems items
    else if type = "object" then propertiesDeclare source.properties properties
    else true

def itemsDeclare (sourceItems : FieldSpec) : Option FieldSpec → Bool
  | none => false
  | some targetItems => sourceItems.declares targetItems

def propertiesDeclare (sourceProperties : List (String × FieldSpec)) : List (String × FieldSpec) → Bool
  | [] => true
  | (name, targetProp) :: rest =>
    (match sourceProperties.lookup name with
      | none => false
      | some sourceProp => (!targetProp.required || sourceProp.required) && sourceProp.declares targetProp) &&
      propertiesDeclare sourceProperties rest

end

section Plain

variable {spec : FieldSpec} {properties : List (String × FieldSpec)} {name : String} {p : FieldSpec → Bool}

theorem everywhere_iff :
    spec.everywhere p = true ↔
      p spec = true ∧ itemsEverywhere p spec.items = true ∧ propertiesEverywhere p spec.properties = true := by
  obtain ⟨type, required, _, _, _, items, properties⟩ := spec
  rw [FieldSpec.everywhere, Bool.and_eq_true, Bool.and_eq_true, and_assoc]

theorem everywhere_of_mem (hall : propertiesEverywhere p properties = true) :
    ∀ e ∈ properties, e.2.everywhere p = true := by
  induction properties with
  | nil => nofun
  | cons e rest ih =>
    rw [propertiesEverywhere, Bool.and_eq_true] at hall
    exact forall_mem_cons.mpr ⟨hall.1, ih hall.2⟩

theorem inOrder_eq_nil {found : List (String × List Diagnostic)} : inOrder found = [] ↔ ∀ e ∈ found, e.2 = [] := by
  simp only [inOrder, flatMap_eq_nil_iff, mem_insertionSort]

theorem mem_validateFields (path : String) {e : String × FieldSpec} (he : e ∈ properties) :
    (e.1, validateFieldSpec (path ++ e.1) e.2) ∈ validateFields path properties := by
  induction properties with
  | nil => cases he
  | cons head rest ih =>
    rw [validateFields]
    rcases mem_cons.mp he with rfl | he
    · exact mem_cons_self
    · exact mem_cons_of_mem _ (ih he)

theorem validateFieldSpec_eq_nil {path : String} (hvalid : validateFieldSpec path spec = []) :
    isValidV1Type spec.type = true ∧
      (spec.type = "array" → ∃ items, spec.items = some items ∧ validateFieldSpec (path ++ ".items") items = []) ∧
      ∀ e ∈ spec.properties, validateFieldSpec (path ++ ".properties." ++ e.1) e.2 = [] := by
  obtain ⟨type, required, _, _, _, items, properties⟩ := spec
  rw [validateFieldSpec] at hvalid
  split at hvalid
  next htype =>
    split at hvalid
    · cases hvalid
    next harray =>
    obtain ⟨hitems, hproperties⟩ := append_eq_nil_iff.mp hvalid
    refine ⟨htype, fun htype => ?_, fun e he => inOrder_eq_nil.mp hproperties _ (mem_validateFields _ he)⟩
    cases items with
    | none => exact absurd ⟨htype, rfl⟩ harray
    | some items =>
      rw [if_pos htype, validateItems] at hitems
      exact ⟨items, rfl, hitems⟩
  · cases hvalid

namespace FieldSpec.Plain

variable (hspec : spec.Plain)
include hspec

theorem type_valid : isValidV1Type spec.type = true := by
  obtain ⟨path, hpath⟩ := hspec.valid
  exact (validateFieldSpec_eq_nil hpath).1

theorem type_ne : spec.type ≠ "any" := of_decide_eq_true (everywhere_iff.mp hspec.anyFree).1

theorem items (htype : spec.type = "array") : ∃ items, spec.items = some items ∧ items.Plain := by
  obtain ⟨path, hpath⟩ := hspec.valid
  obtain ⟨items, hitems, hvalid⟩ := (validateFieldSpec_eq_nil hpath).2.1 htype
  have hfree := (everywhere_iff.mp hspec.anyFree).2.1
  have hkeyed := (everywhere_iff.mp hspec.keyed).2.1
  rw [hitems] at hfree hkeyed
  exact ⟨items, hitems, ⟨_, hvalid⟩, hfree, hkeyed⟩

theorem property : ∀ e ∈ spec.properties, e.2.Plain := by
  intro e he
  obtain ⟨path, hpath⟩ := hspec.valid
  exact ⟨⟨_, (validateFieldSpec_eq_nil hpath).2.2 e he⟩,
    everywhere_of_mem (everywhere_iff.mp hspec.anyFree).2.2 e he,
    everywhere_of_mem (everywhere_iff.mp hspec.keyed).2.2 e he⟩

theorem names_nodup : (spec.properties.map Prod.fst).Nodup :=
  of_decide_eq_true (everywhere_iff.mp hspec.keyed).1

end FieldSpec.Plain

end Plain

def Accepted (diags : List PairDiagnostic) : Prop := ∀ diag ∈ diags, diag.severity ≠ .error

theorem not_accepted_report {pair : FieldPair} {field code message : String} :
    ¬ Accepted (pair.report field code .error message) := by
  intro hnone
  exact hnone _ (mem_singleton_self _) rfl

theorem accepted_nil : Accepted [] := by
  nofun

theorem accepted_sorted {found : List (String × List PairDiagnostic)} :
    Accepted ((found.insertionSort fun a b => a.1 ≤ b.1).flatMap Prod.snd) ↔ ∀ e ∈ found, Accepted e.2 := by
  simp only [Accepted, mem_flatMap, mem_insertionSort]
  exact ⟨fun hall e he diag hdiag => hall diag ⟨e, he, hdiag⟩, fun hall diag ⟨e, he, hdiag⟩ => hall e he diag hdiag⟩

theorem mem_of_lookup {properties : List (String × FieldSpec)} {name : String} {spec : FieldSpec}
    (hspec : properties.lookup name = some spec) : (name, spec) ∈ properties := by
  induction properties with
  | nil => cases hspec
  | cons e rest ih => grind

mutual

/-- No error is found exactly if the specifications agree. -/
theorem accepted_iff (target : FieldSpec) {sourceField targetField : String} {source : FieldSpec}
    (hsource : source.Plain) (htarget : target.Plain) :
    Accepted (validateCompatibility sourceField source targetField target) ↔ source.agrees target = true := by
  match target with
  | ⟨type, required, _, _, _, items, properties⟩ =>
    have hany : ¬ (source.type = "any" ∨ type = "any") := not_or.mpr ⟨hsource.type_ne, htarget.type_ne⟩
    have hvalid : isValidV1Type type = true := htarget.type_valid
    rw [validateCompatibility, FieldSpec.agrees, hsource.type_valid, hvalid, if_neg (by simp), if_neg (by simp),
      if_neg hany]
    by_cases htype : source.type = type
    swap
    · rw [if_pos htype, decide_eq_false htype]
      exact iff_of_false not_accepted_report (by simp)
    rw [if_neg (not_not.mpr htype), decide_eq_true htype, Bool.true_and]
    by_cases harray : type = "array"
    · obtain ⟨sourceItems, hsourceItems, hplain⟩ := hsource.items (htype.trans harray)
      obtain ⟨targetItems, htargetItems, htargetPlain⟩ := htarget.items harray
      rw [if_pos harray, if_pos harray, hsourceItems]
      match items with
      | none => cases htargetItems
      | some elem =>
        rw [← Option.some.inj htargetItems] at htargetPlain
        exact accepted_iff elem hplain htargetPlain
    rw [if_neg harray, if_neg harray]
    by_cases hobject : type = "object"
    · rw [if_pos hobject, if_pos hobject]
      by_cases hempty : source.properties.isEmpty = true
      · simp [hempty, accepted_nil]
      by_cases hnone : properties.isEmpty = true
      · simp [isEmpty_iff.mp hnone, accepted_nil, propertiesAgree]
      rw [if_neg (by simp [hempty, hnone]), accepted_sorted, Bool.eq_false_of_not_eq_true hempty, Bool.false_or]
      exact acceptedProperties_iff properties hsource.property htarget.property
    · rw [if_neg hobject, if_neg hobject]
      exact iff_of_true accepted_nil rfl

theorem acceptedProperties_iff (properties : List (String × FieldSpec)) {pair : FieldPair}
    {sourceProperties : List (String × FieldSpec)} (hsource : ∀ e ∈ sourceProperties, e.2.Plain)
    (htarget : ∀ e ∈ properties, e.2.Plain) :
    (∀ e ∈ validatePropertiesCompatibility pair sourceProperties properties, Accepted e.2) ↔
      propertiesAgree sourceProperties properties = true := by
  match properties with
  | [] => simp [validatePropertiesCompatibility, propertiesAgree]
  | (name, target) :: rest =>
    obtain ⟨hhead, hrest⟩ := forall_mem_cons.mp htarget
    rw [validatePropertiesCompatibility, forall_mem_cons, propertiesAgree, Bool.and_eq_true]
    refine and_congr ?_ (acceptedProperties_iff rest hsource hrest)
    cases hfound : sourceProperties.lookup name with
    | none =>
      cases target.required with
      | true => exact iff_of_false not_accepted_report (by simp)
      | false => exact iff_of_true accepted_nil rfl
    | some source => exact accepted_iff target (hsource _ (mem_of_lookup hfound)) hhead

end

section Conforming

variable {scalar : String → Value → Bool} {spec : FieldSpec} {properties : List (String × FieldSpec)} {name : String}

theorem conforms_array (htype : spec.type = "array") {value : Value} :
    conforms scalar spec value = true ↔
      ∃ elems, value = .list elems ∧ ∀ elem ∈ elems, conformsItems scalar spec.items elem = true := by
  rw [conforms.eq_def]
  grind

theorem conforms_object (htype : spec.type = "object") {value : Value} :
    conforms scalar spec value = true ↔
      ∃ entries, value = .map entries ∧ conformsProperties scalar spec.properties entries = true := by
  rw [conforms.eq_def]
  grind

theorem conforms_scalar (hany : spec.type ≠ "any") (harray : spec.type ≠ "array")
    (hobject : spec.type ≠ "object") (value : Value) : conforms scalar spec value = scalar spec.type value := by
  obtain ⟨type, _, _, _, _, items, properties⟩ := spec
  simp_all [conforms.eq_def]

/-- What an object has for a property, if anything, suits the property. -/
def FieldSpec.suits (scalar : String → Value → Bool) (spec : FieldSpec) : Option Value → Bool
  | none => !spec.required
  | some value => conforms scalar spec value

theorem conformsProperties_iff {entries : Vars} :
    conformsProperties scalar properties entries = true ↔
      ∀ e ∈ properties, e.2.suits scalar (entries.lookup e.1) = true := by
  induction properties with
  | nil => simp [conformsProperties]
  | cons e rest ih =>
    rw [conformsProperties, Bool.and_eq_true, ih, forall_mem_cons]
    cases hvalue : entries.lookup e.1 <;> rfl

theorem lookup_filterMap (found : String → Option Value) {names : List String} {name : String} (hname : name ∈ names) :
    (names.filterMap fun name => (found name).map (name, ·)).lookup name = found name := by
  have hlookup : ∀ names : List String, (names.filterMap fun name => (found name).map (name, ·)).lookup name =
      if name ∈ names then found name else none := by
    intro names
    induction names with
    | nil => rfl
    | cons other rest ih => cases hother : found other <;> grind
  rw [hlookup, if_pos hname]

theorem lookup_eq_some {e : String × FieldSpec} (hnodup : (properties.map Prod.fst).Nodup) (he : e ∈ properties) :
    properties.lookup e.1 = some e.2 := by
  induction properties with
  | nil => cases he
  | cons first rest ih =>
    rw [map_cons, nodup_cons] at hnodup
    rcases mem_cons.mp he with rfl | hrest
    · exact lookup_cons_self
    · obtain ⟨name, spec⟩ := first
      have hne : e.1 ≠ name := by
        rintro rfl
        exact hnodup.1 (mem_map.mpr ⟨e, hrest, rfl⟩)
      rw [lookup_cons, beq_false_of_ne hne]
      exact ih hnodup.2 hrest

theorem exists_found (hnodup : (properties.map Prod.fst).Nodup)
    (hsamples : ∀ e ∈ properties, ∃ value, conforms scalar e.2 value = true) :
    ∃ found : String → Option Value, ∀ e ∈ properties, e.2.suits scalar (found e.1) = true := by
  have : Nonempty Value := ⟨.nil⟩
  choose! sample hsample using hsamples
  refine ⟨fun name => (properties.lookup name).map fun spec => sample (name, spec), fun e he => ?_⟩
  simp only [lookup_eq_some hnodup he, Option.map_some]
  exact hsample e he

/-- An object that has what is found for the properties and for one more name. -/
theorem exists_entries {found : String → Option Value} (hfound : ∀ e ∈ properties, e.2.suits scalar (found e.1) = true)
    (name : String) :
    ∃ entries : Vars, conformsProperties scalar properties entries = true ∧ entries.lookup name = found name := by
  refine ⟨(name :: properties.map Prod.fst).filterMap fun other => (found other).map (other, ·),
    conformsProperties_iff.mpr fun e he => ?_, lookup_filterMap found mem_cons_self⟩
  rw [lookup_filterMap found (mem_cons_of_mem _ (mem_map_of_mem he))]
  exact hfound e he

end Conforming

section Exact

/-- What the scalar types hold: each something, and none a null. -/
structure Inhabits (scalar : String → Value → Bool) : Prop where
  value : ∀ type, isValidV1Type type = true → type ≠ "any" → type ≠ "array" → type ≠ "object" →
    ∃ value, scalar type value = true
  nil : ∀ type, scalar type .nil = false

variable {scalar : String → Value → Bool}

mutual

theorem exists_conforming (hscalar : Inhabits scalar) (spec : FieldSpec) (hspec : spec.Plain) :
    ∃ value, conforms scalar spec value = true := by
  match spec with
  | ⟨type, required, _, _, _, items, properties⟩ =>
    by_cases harray : type = "array"
    · exact ⟨.list [], (conforms_array harray).mpr ⟨[], rfl, nofun⟩⟩
    by_cases hobject : type = "object"
    · obtain ⟨found, hfound⟩ :=
        exists_found hspec.names_nodup (exists_conforming_properties hscalar properties hspec.property)
      obtain ⟨entries, hentries, _⟩ := exists_entries hfound ""
      exact ⟨.map entries, (conforms_object hobject).mpr ⟨entries, rfl, hentries⟩⟩
    obtain ⟨value, hvalue⟩ := hscalar.value type hspec.type_valid hspec.type_ne harray hobject
    exact ⟨value, (conforms_scalar hspec.type_ne harray hobject value).trans hvalue⟩

theorem exists_conforming_properties (hscalar : Inhabits scalar) (properties : List (String × FieldSpec))
    (hproperties : ∀ e ∈ properties, e.2.Plain) : ∀ e ∈ properties, ∃ value, conforms scalar e.2 value = true := by
  match properties with
  | [] => nofun
  | (name, spec) :: rest =>
    obtain ⟨hhead, hrest⟩ := forall_mem_cons.mp hproperties
    exact forall_mem_cons.mpr ⟨exists_conforming hscalar spec hhead, exists_conforming_properties hscalar rest hrest⟩

end

theorem not_conforms_nil (hscalar : Inhabits scalar) {spec : FieldSpec} (hspec : spec.Plain) :
    conforms scalar spec .nil = false := by
  rw [Bool.eq_false_iff]
  intro hconforms
  by_cases harray : spec.type = "array"
  · obtain ⟨elems, hnil, _⟩ := (conforms_array harray).mp hconforms
    cases hnil
  by_cases hobject : spec.type = "object"
  · obtain ⟨entries, hnil, _⟩ := (conforms_object hobject).mp hconforms
    cases hnil
  rw [conforms_scalar hspec.type_ne harray hobject, hscalar.nil] at hconforms
  cases hconforms

mutual

theorem conforms_of_declares (target : FieldSpec) {source : FieldSpec} {value : Value} (hsource : source.Plain)
    (htarget : target.Plain) (hagrees : source.agrees target = true) (hdeclares : source.declares target = true)
    (hconforms : conforms scalar source value = true) : conforms scalar target value = true := by
  match target with
  | ⟨type, required, _, _, _, items, properties⟩ =>
    rw [FieldSpec.agrees, Bool.and_eq_true, decide_eq_true_eq] at hagrees
    obtain ⟨htype, hagrees⟩ := hagrees
    rw [FieldSpec.declares] at hdeclares
    by_cases harray : type = "array"
    · obtain ⟨sourceItems, hitems, hplain⟩ := hsource.items (htype.trans harray)
      obtain ⟨targetItems, htargetItems, htargetPlain⟩ := htarget.items harray
      rw [if_pos harray, hitems] at hagrees hdeclares
      rw [conforms_array (htype.trans harray), hitems] at hconforms
      obtain ⟨elems, rfl, helems⟩ := hconforms
      refine (conforms_array harray).mpr ⟨elems, rfl, fun elem helem => ?_⟩
      match items with
      | none => cases htargetItems
      | some spec =>
        rw [← Option.some.inj htargetItems] at htargetPlain
        exact conforms_of_declares spec hplain htargetPlain hagrees hdeclares (helems elem helem)
    rw [if_neg harray] at hagrees hdeclares
    by_cases hobject : type = "object"
    · rw [if_pos hobject] at hagrees hdeclares
      rw [conforms_object (htype.trans hobject)] at hconforms
      obtain ⟨entries, rfl, hentries⟩ := hconforms
      exact (conforms_object hobject).mpr ⟨entries, rfl,
        conformsProperties_of_declares properties hsource.property htarget.property hagrees hdeclares hentries⟩
    · rw [conforms_scalar hsource.type_ne (htype ▸ harray) (htype ▸ hobject)] at hconforms
      rw [conforms_scalar htarget.type_ne harray hobject, ← htype]
      exact hconforms

theorem conformsProperties_of_declares (properties : List (String × FieldSpec))
    {sourceProperties : List (String × FieldSpec)} {entries : Vars} (hsource : ∀ e ∈ sourceProperties, e.2.Plain)
    (htarget : ∀ e ∈ properties, e.2.Plain)
    (hagrees : (sourceProperties.isEmpty || propertiesAgree sourceProperties properties) = true)
    (hdeclares : propertiesDeclare sourceProperties properties = true)
    (hconforms : conformsProperties scalar sourceProperties entries = true) :
    conformsProperties scalar properties entries = true := by
  match properties with
  | [] => rw [conformsProperties]
  | (name, target) :: rest =>
    obtain ⟨hhead, hrest⟩ := forall_mem_cons.mp htarget
    rw [propertiesDeclare, Bool.and_eq_true] at hdeclares
    cases hfound : sourceProperties.lookup name with
    | none =>
      rw [hfound] at hdeclares
      cases hdeclares.1
    | some source =>
      have hmem := mem_of_lookup hfound
      have hempty : sourceProperties.isEmpty = false := isEmpty_eq_false_iff.mpr (ne_nil_of_mem hmem)
      rw [hempty, Bool.false_or, propertiesAgree, Bool.and_eq_true, hfound] at hagrees
      rw [hfound, Bool.and_eq_true] at hdeclares
      obtain ⟨⟨hrequired, hprop⟩, hdeclares⟩ := hdeclares
      rw [conformsProperties, Bool.and_eq_true]
      refine ⟨?_, conformsProperties_of_declares rest hsource hrest
        (by rw [hagrees.2, Bool.or_true]) hdeclares hconforms⟩
      have hentry := conformsProperties_iff.mp hconforms _ hmem
      cases hvalue : entries.lookup name with
      | none =>
        -- the source does not require the property, so the target does not either
        rw [hvalue] at hentry
        simp_all [FieldSpec.suits]
      | some value =>
        rw [hvalue] at hentry
        exact conforms_of_declares target (hsource _ hmem) hhead hagrees.1 hprop hentry

end

mutual

/-- A value of the source that the target does not accept. -/
theorem exists_escape (hscalar : Inhabits scalar) (target : FieldSpec) {source : FieldSpec} (hsource : source.Plain)
    (htarget : target.Plain) (hagrees : source.agrees target = true) (hdeclares : source.declares target = false) :
    ∃ value, conforms scalar source value = true ∧ conforms scalar target value = false := by
  match target with
  | ⟨type, required, _, _, _, items, properties⟩ =>
    rw [FieldSpec.agrees, Bool.and_eq_true, decide_eq_true_eq] at hagrees
    obtain ⟨htype, hagrees⟩ := hagrees
    rw [FieldSpec.declares] at hdeclares
    by_cases harray : type = "array"
    · obtain ⟨sourceItems, hitems, hplain⟩ := hsource.items (htype.trans harray)
      obtain ⟨targetItems, htargetItems, htargetPlain⟩ := htarget.items harray
      rw [if_pos harray, hitems] at hagrees hdeclares
      match items with
      | none => cases htargetItems
      | some spec =>
        rw [← Option.some.inj htargetItems] at htargetPlain
        obtain ⟨value, hconforms, hescape⟩ := exists_escape hscalar spec hplain htargetPlain hagrees hdeclares
        refine ⟨.list [value], (conforms_array (htype.trans harray)).mpr ⟨[value], rfl, ?_⟩, ?_⟩
        · rw [hitems]
          exact forall_mem_singleton.mpr hconforms
        · rw [Bool.eq_false_iff]
          intro hconforms
          obtain ⟨elems, helems, hall⟩ := (conforms_array harray).mp hconforms
          cases helems
          exact Bool.eq_false_iff.mp hescape (hall value mem_cons_self)
    rw [if_neg harray] at hagrees hdeclares
    by_cases hobject : type = "object"
    · rw [if_pos hobject] at hagrees hdeclares
      obtain ⟨entries, hconforms, hescape⟩ :=
        exists_escape_property hscalar properties hsource htarget.property hagrees hdeclares
      refine ⟨.map entries, (conforms_object (htype.trans hobject)).mpr ⟨entries, rfl, hconforms⟩, ?_⟩
      rw [Bool.eq_false_iff]
      intro hconforms
      obtain ⟨other, hother, hall⟩ := (conforms_object hobject).mp hconforms
      cases hother
      exact Bool.eq_false_iff.mp hescape hall
    · rw [if_neg hobject] at hdeclares
      cases hdeclares

theorem exists_escape_property (hscalar : Inhabits scalar) (properties : List (String × FieldSpec)) {source : FieldSpec}
    (hsource : source.Plain) (htarget : ∀ e ∈ properties, e.2.Plain)
    (hagrees : (source.properties.isEmpty || propertiesAgree source.properties properties) = true)
    (hdeclares : propertiesDeclare source.properties properties = false) :
    ∃ entries, conformsProperties scalar source.properties entries = true ∧
      conformsProperties scalar properties entries = false := by
  match properties with
  | [] => cases hdeclares
  | (name, target) :: rest =>
    obtain ⟨hhead, hrest⟩ := forall_mem_cons.mp htarget
    -- what the object has for this property decides
    have hescape : ∀ found, target.suits scalar found = false →
        (∀ spec, source.properties.lookup name = some spec → spec.suits scalar found = true) →
        ∃ entries, conformsProperties scalar source.properties entries = true ∧
          conformsProperties scalar ((name, target) :: rest) entries = false := by
      intro found htarget hfound
      obtain ⟨samples, hsamples⟩ := exists_found hsource.names_nodup
        (exists_conforming_properties hscalar source.properties hsource.property)
      have hupdate : ∀ e ∈ source.properties, e.2.suits scalar (Function.update samples name found e.1) = true := by
        intro e he
        by_cases hname : e.1 = name
        · rw [hname, Function.update_self]
          exact hfound e.2 (hname ▸ lookup_eq_some hsource.names_nodup he)
        · rw [Function.update_of_ne hname]
          exact hsamples e he
      obtain ⟨entries, hentries, hname⟩ := exists_entries hupdate name
      refine ⟨entries, hentries, Bool.eq_false_iff.mpr fun hall => ?_⟩
      have hsuits := conformsProperties_iff.mp hall _ mem_cons_self
      rw [hname, Function.update_self, htarget] at hsuits
      cases hsuits
    cases hfound : source.properties.lookup name with
    | none =>
      exact hescape (some .nil) (not_conforms_nil hscalar hhead) (by simp [hfound])
    | some spec =>
      have hmem := mem_of_lookup hfound
      have hempty : source.properties.isEmpty = false := isEmpty_eq_false_iff.mpr (ne_nil_of_mem hmem)
      rw [hempty, Bool.false_or, propertiesAgree, Bool.and_eq_true, hfound] at hagrees
      rw [propertiesDeclare, hfound, Bool.and_eq_false_iff, Bool.and_eq_false_iff] at hdeclares
      rcases hdeclares with (hrequired | hprop) | hdeclares
      · apply hescape none
        · simp_all [FieldSpec.suits]
        · simp_all [FieldSpec.suits]
      · obtain ⟨value, hconforms, hvalue⟩ :=
          exists_escape hscalar target (hsource.property _ hmem) hhead hagrees.1 hprop
        apply hescape (some value) hvalue
        intro other hother
        rw [hfound] at hother
        cases hother
        exact hconforms
      · obtain ⟨entries, hentries, hall⟩ :=
          exists_escape_property hscalar rest hsource hrest (by rw [hagrees.2, Bool.or_true]) hdeclares
        refine ⟨entries, hentries, ?_⟩
        rw [conformsProperties, hall, Bool.and_false]

end

end Exact

/-- If no error is found, every value of the source is one of the target, exactly if specifications
that agree declare the same properties. -/
theorem compatibility_sound (scalar : String → Value → Bool) (hscalar : Inhabits scalar)
    (sourceField targetField : String)
    (source target : FieldSpec) (hsource : source.Plain) (htarget : target.Plain) :
    (hasValidationErrors ((validateCompatibility sourceField source targetField target).map (·.toDiagnostic)) = false →
        ∀ value, conforms scalar source value = true → conforms scalar target value = true) ↔
      (source.agrees target = true → source.declares target = true) := by
  have hnone :
      hasValidationErrors ((validateCompatibility sourceField source targetField target).map (·.toDiagnostic)) = false ↔
        Accepted (validateCompatibility sourceField source targetField target) := by
    grind [Accepted, hasValidationErrors]
  rw [hnone, accepted_iff target hsource htarget]
  refine forall_congr' fun hagrees => ⟨fun hsound => ?_, fun hdeclares value => ?_⟩
  · by_contra hdeclares
    obtain ⟨value, hconforms, hescape⟩ :=
      exists_escape hscalar target hsource htarget hagrees (Bool.eq_false_iff.mpr hdeclares)
    exact Bool.eq_false_iff.mp hescape (hsound value hconforms)
  · exact conforms_of_declares target hsource htarget hagrees hdeclares

namespace users

def isScalar : String → Value → Bool
  | type, .str _ => type = "string" || type = "bytes"
  | type, .num _ n => type = "float" || (type = "integer" && n.den = 1)
  | type, .bool _ => type = "boolean"
  | _, _ => false

def object (properties : List (String × FieldSpec)) : FieldSpec := { type := "object", properties }

def tags : FieldSpec := { type := "array", items := some { type := "string" } }

def source : FieldSpec := object [("id", { type := "string", required := true }), ("tags", tags)]

def target : FieldSpec := object [("tags", tags)]

theorem source_plain : source.Plain := ⟨⟨"source", by decide +kernel⟩, by decide +kernel, by decide +kernel⟩

theorem target_plain : target.Plain := ⟨⟨"target", by decide +kernel⟩, by decide +kernel, by decide +kernel⟩

theorem inhabits : Inhabits isScalar where
  nil _ := rfl
  value type hvalid hany harray hobject := by
    simp only [isValidV1Type, decide_eq_true_eq, mem_cons, not_mem_nil, or_false] at hvalid
    rcases hvalid with rfl | rfl | rfl | rfl | rfl | rfl | rfl | rfl
    · exact ⟨.str "", rfl⟩
    · exact ⟨.num .int 0, rfl⟩
    · exact ⟨.num .int 0, rfl⟩
    · exact ⟨.bool true, rfl⟩
    · exact ⟨.str "", rfl⟩
    · exact absurd rfl harray
    · exact absurd rfl hobject
    · exact absurd rfl hany

def value : Value := .map [("id", .str "u1"), ("tags", .list [.str "a"])]

/-- A valid pair without `any` in which no error is found, and a value of the source
that is not one of the target. -/
def escapes (source target : FieldSpec) (value : Value) : Bool :=
  validateFieldSpec "source" source = [] && validateFieldSpec "target" target = [] &&
    source.anyFree && target.anyFree && validateCompatibility "source" source "target" target = [] &&
    conforms isScalar source value && !conforms isScalar target value

end users

theorem compatibility_sound_users :
    users.source.agrees users.target = true ∧ users.source.declares users.target = true ∧
      conforms users.isScalar users.source users.value = true ∧
      conforms users.isScalar users.target users.value = true := by
  have hagrees : users.source.agrees users.target = true := by decide +kernel
  have hdeclares : users.source.declares users.target = true := by decide +kernel
  have hconforms : conforms users.isScalar users.source users.value = true := by decide +kernel
  refine ⟨hagrees, hdeclares, hconforms, ?_⟩
  have hsound := compatibility_sound users.isScalar users.inhabits "source" "target" users.source users.target
    users.source_plain users.target_plain
  exact hsound.mpr (fun _ => hdeclares) (by decide +kernel) users.value hconforms

/-- A source without properties feeds a target that requires one, an optional property
feeds a required one, and a property that only the target declares holds anything. -/
theorem compatibility_unsound :
    users.escapes (users.object []) (users.object [("id", { type := "string", required := true })]) (.map []) = true ∧
      users.escapes (users.object [("id", { type := "string" })])
        (users.object [("id", { type := "string", required := true })]) (.map []) = true ∧
      users.escapes (users.object [("name", { type := "string" })]) (users.object [("id", { type := "string" })])
        (.map [("id", .bool true)]) = true := by
  refine ⟨?_, ?_, ?_⟩ <;> decide +kernel

end petalflow.tool
