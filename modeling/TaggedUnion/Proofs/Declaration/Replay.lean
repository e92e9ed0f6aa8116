import Mathlib.Data.List.Nodup
import TaggedUnion.Proofs.Declaration.StoredTokens

/-!
# Boxing by the log

While a module is written, the log tells of each field whose stored type is not the field itself.
These are the fields that are boxed, variant by variant and in the order of their positions. Since
the names of variants are distinct, a name and a position are enough to find a field again: boxing
the fields of the schema where the log says so gives the text of the module.
-/

namespace TaggedUnion

def Event.boxed? : Event → Option (String × Nat × String)
  | fieldBoxed variant position field => some (variant, position, field)
  | _ => none

/-- The variant with a box around its fields at the positions that are listed for its name. -/
def Variant.boxedAt (positions : List (String × Nat)) (v : Variant) : Variant :=
  ⟨v.name, v.fields.zipIdx.map fun (field, i) =>
    if (v.name, i) ∈ positions then "Box<" ++ field ++ ">" else field⟩

/-- The text of a module that stores all fields as they are. -/
def plainModule (base : String) (vs : List Variant) : String :=
  moduleHead ++ derives ++ "pub enum " ++ base ++ " \x7b\n" ++
    String.join (vs.map fun v =>
      "    " ++ v.name ++ "(" ++ ", ".intercalate v.fields ++ "),\n") ++ "\x7d"

namespace UnionNames
variable (names : UnionNames)

def boxedFields (v : Variant) : List (String × Nat × String) :=
  (v.fields.zipIdx.filter fun (field, i) => names.storage i field = .boxed).map
    fun (field, i) => (v.name, i, field)

theorem mem_boxedFields {v : Variant} {name field : String} {i : Nat} :
    (name, i, field) ∈ names.boxedFields v ↔
      name = v.name ∧ v.fields[i]? = some field ∧ names.storage i field = .boxed := by
  simp only [boxedFields, List.mem_map, List.mem_filter, List.mem_zipIdx_iff_getElem?, Prod.exists,
    Prod.mk.injEq, decide_eq_true_eq]
  constructor
  · intro ⟨f, j, ⟨hf, hbox⟩, hname, hj, hfield⟩
    subst hj hfield
    exact ⟨hname.symm, hf, hbox⟩
  · intro ⟨hname, hf, hbox⟩
    exact ⟨field, i, ⟨hf, hbox⟩, hname.symm, rfl, rfl⟩

theorem storedType_of_boxed {i : Nat} {field : String} (h : names.storage i field = .boxed) :
    names.storedType i field = "Box<" ++ field ++ ">" := by
  rw [storedType, h]

theorem storedType_of_not_boxed {i : Nat} {field : String} (h : names.storage i field ≠ .boxed) :
    names.storedType i field = field := by
  cases hstorage : names.storage i field with
  | inPlace => rw [storedType, hstorage]
  | boxed => exact absurd hstorage h

theorem storedType_eq_self_iff {i : Nat} {field : String} :
    names.storedType i field = field ↔ names.storage i field ≠ .boxed := by
  constructor
  · intro h hbox
    rw [storedType_of_boxed names hbox] at h
    exact boxed_ne field h
  · exact storedType_of_not_boxed names

theorem boxed?_boxingEvents (v : Variant) :
    (names.boxingEvents v).filterMap Event.boxed? = names.boxedFields v := by
  rw [boxingEvents, boxedFields, List.filterMap_filterMap]
  induction v.fields.zipIdx with
  | nil => rfl
  | cons p ps ih =>
      obtain ⟨field, i⟩ := p
      by_cases hbox : names.storage i field = .boxed
      · have hother := mt names.storedType_eq_self_iff.mp (not_not_intro hbox)
        simp [hbox, hother, Event.boxed?, ih]
      · simp [hbox, storedType_of_not_boxed names hbox, ih]

theorem boxed?_emissionEvents (vs : List Variant) :
    (names.emissionEvents vs).filterMap Event.boxed? = vs.flatMap names.boxedFields := by
  rw [emissionEvents, List.filterMap_append, List.filterMap_flatMap]
  simp [boxed?_boxingEvents, Event.boxed?]

def boxedPositions (vs : List Variant) : List (String × Nat) :=
  (vs.flatMap names.boxedFields).map fun (name, i, _) => (name, i)

/-- Where names are distinct, a name and a position tell whether a field is boxed. -/
theorem mem_boxedPositions {vs : List Variant} (hnames : (vs.map (·.name)).Nodup) {v : Variant}
    (hv : v ∈ vs) {i : Nat} {field : String} (hfield : v.fields[i]? = some field) :
    (v.name, i) ∈ names.boxedPositions vs ↔ names.storage i field = .boxed := by
  simp only [boxedPositions, List.mem_map, List.mem_flatMap, Prod.exists, Prod.mk.injEq]
  constructor
  · intro ⟨name, j, f, ⟨w, hw, hmem⟩, hname, hj⟩
    obtain ⟨hwname, hf, hbox⟩ := names.mem_boxedFields.mp hmem
    have hsame : w = v := List.inj_on_of_nodup_map hnames hw hv (hwname.symm.trans hname)
    subst hj hsame
    rwa [Option.some.inj (hfield.symm.trans hf)]
  · intro hbox
    exact ⟨v.name, i, field, ⟨v, hv, names.mem_boxedFields.mpr ⟨rfl, hfield, hbox⟩⟩, rfl, rfl⟩

theorem boxedAt_boxedPositions {vs : List Variant} (hnames : (vs.map (·.name)).Nodup)
    {v : Variant} (hv : v ∈ vs) : v.boxedAt (names.boxedPositions vs) = names.stored v := by
  have htypes : (v.boxedAt (names.boxedPositions vs)).fields = names.storedTypes v := by
    apply List.map_congr_left
    intro ⟨field, i⟩ hmem
    have hfield : v.fields[i]? = some field := List.mem_zipIdx_iff_getElem?.mp hmem
    have hlogged := names.mem_boxedPositions hnames hv hfield
    by_cases hbox : names.storage i field = .boxed
    · simp [hlogged, hbox, storedType_of_boxed names hbox]
    · simp [hlogged, hbox, storedType_of_not_boxed names hbox]
  rw [stored, ← htypes]
  rfl

/-- The text of the module is that of the schema with boxes where the log tells of them. -/
theorem moduleText_eq_plainModule {vs : List Variant} (hnames : (vs.map (·.name)).Nodup)
    (h : ∀ v ∈ vs, v.WellFormed) : names.moduleText vs =
      plainModule names.base (vs.map (·.boxedAt (names.boxedPositions vs))) := by
  have hlines : (vs.map names.row).map (· ++ "\n") =
      (vs.map (·.boxedAt (names.boxedPositions vs))).map fun v =>
        "    " ++ v.name ++ "(" ++ ", ".intercalate v.fields ++ "),\n" := by
    rw [List.map_map, List.map_map]
    apply List.map_congr_left
    intro v hv
    simp only [Function.comp, names.boxedAt_boxedPositions hnames hv]
    apply String.toList_inj.mp
    simp [row, stored]
  rw [moduleText_eq_rows h, hlines, plainModule]

end UnionNames

end TaggedUnion
