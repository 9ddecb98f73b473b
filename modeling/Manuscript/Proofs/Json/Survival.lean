import Manuscript.Json.Basic
import Mathlib.Data.List.Forall2
import Mathlib.Data.List.Nodup
import Mathlib.Logic.Relation

/-!
# Writing a value and reading it again

A `Json.Format` tells where a JSON value has records, which fields they have, and which of these may
be missing. One edit changes a value in one place and should not change what it says: a field that
the record does not know comes in, or an optional field that is null goes (`Json.Format.Edits`). The
places are not alike. Fields come and go only where a record is written as an object; where it is
written as an array, and where an object has one field that tells what kind of value it holds, edits
go on inside only.

A writer and a reader survive one another (`Json.Survives`) if what is written is read back, and any
number of edits leave what is read as it is. The format has to tell all the records in what is
written (`Json.Format.Describes`), so that no place for an edit is passed over. This is built up
along the format:

* `Json.Survives.list` for the arrays;
* `Json.Survives.record` and `Json.Survives.tagged` for the objects. A record is told there part by
  part, and a `Json.Part` carries the laws of its field, so that all that is left to show for a
  record type is which parts its reader takes.
-/

namespace Manuscript
namespace Json

variable {α : Type}

/-! ### Formats and edits -/

/-- Whether a field has to be there. -/
inductive Presence
  | required
  | optional
deriving DecidableEq, Repr

/-- The form of a value, as far as it has records. -/
inductive Format
  /-- A value without records. -/
  | plain
  | list (element : Format)
  /-- An object with exactly one field, whose name tells the form of what it holds. -/
  | tagged (alternatives : List (Text × Format))
  | record (fields : List (Text × Presence × Format))

/-- The format tells all the records in the value, each with all its fields in their order. What is
optional may be null. -/
inductive Format.Describes : Format → Json → Prop
  | plain {json : Json} (noArray : ∀ elements, json ≠ .array elements)
      (noObject : ∀ entries, json ≠ .object entries) : Describes .plain json
  | list {format : Format} {elements : List Json}
      (each : ∀ element ∈ elements, Describes format element) :
      Describes (.list format) (.array elements)
  | tagged {alternatives : List (Text × Format)} {name : Text} {format : Format} {value : Json}
      (known : (name, format) ∈ alternatives) (inner : Describes format value) :
      Describes (.tagged alternatives) (.object [(name, value)])
  | record {fields : List (Text × Presence × Format)} {entries : List (Text × Json)}
      (names : entries.map Prod.fst = fields.map Prod.fst)
      (each : ∀ field entry, (field, entry) ∈ fields.zip entries →
        (field.2.1 = .optional → entry.2 ≠ .null) → Describes field.2.2 entry.2) :
      Describes (.record fields) (.object entries)

/-- One edit of a value, in one place. -/
inductive Format.Edits : Format → Json → Json → Prop
  /-- A field that the record does not know comes in. -/
  | add {fields : List (Text × Presence × Format)} {before after : List (Text × Json)}
      {name : Text} {value : Json} (unknown : name ∉ fields.map Prod.fst) :
      Edits (.record fields) (.object (before ++ after))
        (.object (before ++ (name, value) :: after))
  /-- An optional field that is null goes, and no other value of it comes to the fore. -/
  | drop {fields : List (Text × Presence × Format)} {before after : List (Text × Json)}
      {name : Text} {format : Format} (known : (name, .optional, format) ∈ fields)
      (gone : name ∉ after.map Prod.fst) :
      Edits (.record fields) (.object (before ++ (name, .null) :: after))
        (.object (before ++ after))
  /-- A field of the record is edited. -/
  | field {fields : List (Text × Presence × Format)} {before after : List (Text × Json)}
      {name : Text} {presence : Presence} {format : Format} {value value' : Json}
      (known : (name, presence, format) ∈ fields) (edits : Edits format value value') :
      Edits (.record fields) (.object (before ++ (name, value) :: after))
        (.object (before ++ (name, value') :: after))
  /-- A field is edited in a record that is written by position. -/
  | position {fields : List (Text × Presence × Format)} {before after : List Json}
      {name : Text} {presence : Presence} {format : Format} {value value' : Json}
      (known : fields[before.length]? = some (name, presence, format))
      (edits : Edits format value value') :
      Edits (.record fields) (.array (before ++ value :: after))
        (.array (before ++ value' :: after))
  /-- An element of an array is edited. -/
  | element {format : Format} {before after : List Json} {value value' : Json}
      (edits : Edits format value value') :
      Edits (.list format) (.array (before ++ value :: after)) (.array (before ++ value' :: after))
  /-- What the only field of an object holds is edited. -/
  | alternative {alternatives : List (Text × Format)} {name : Text} {format : Format}
      {value value' : Json} (known : (name, format) ∈ alternatives)
      (edits : Edits format value value') :
      Edits (.tagged alternatives) (.object [(name, value)]) (.object [(name, value')])

/-- Nothing is null that can be edited, and nothing becomes null. -/
theorem Format.Edits.ne_null {format : Format} {json json' : Json}
    (edits : format.Edits json json') : json ≠ .null ∧ json' ≠ .null := by
  cases edits <;> exact ⟨nofun, nofun⟩

/-- The writer and the reader survive one another. The counters of a value are told apart, since a
counter that is out of range is written and not read. -/
structure Survives (write : α → Json) (read : Json → Option α) (counters : α → List Nat)
    (format : Format) : Prop where
  /-- The format is that of what is written. -/
  describes : ∀ value, format.Describes (write value)
  /-- What is written is read back if and only if its counters are in range. -/
  read_write : ∀ value, read (write value) = some value ↔ ∀ n ∈ counters value, n < counterBound
  /-- Any number of edits leave what is read as it is. -/
  read_edited : ∀ {json json' value}, Relation.ReflTransGen format.Edits json json' →
    read json = some value → read json' = some value
  /-- Whatever is read can be written and read again. -/
  read_again : ∀ {json value}, read json = some value → read (write value) = some value

/-! ### Lists side by side -/

section Lists

variable {β γ : Type} {r : β → γ → Prop} {xs : List β} {ys : List γ}

/-- What follows for an entry of the first list from that beside it holds for all of them. -/
theorem forall_mem_of_forall₂ {p : β → Prop} (follows : ∀ x y, r x y → p x)
    (related : List.Forall₂ r xs ys) : ∀ x ∈ xs, p x :=
  ((List.forall₂_and_left xs ys).1 (related.imp fun x y h => ⟨follows x y h, h⟩)).1

/-- An entry of the second list may be replaced by one that still fits the entry beside it. -/
theorem forall₂_replace {before after : List γ} {y y' : γ}
    (fits : ∀ x, xs[before.length]? = some x → r x y → r x y')
    (related : List.Forall₂ r xs (before ++ y :: after)) :
    List.Forall₂ r xs (before ++ y' :: after) := by
  induction before generalizing xs with
  | nil =>
    cases related with
    | cons first rest => exact .cons (fits _ rfl first) rest
  | cons z before ih =>
    cases related with
    | cons first rest => exact .cons first (ih fits rest)

end Lists

namespace Survives

variable {write : α → Json} {read : Json → Option α} {counters : α → List Nat} {format : Format}
  {json json' : Json} {value : α}

/-- It is enough to look at one edit. -/
theorem of_edits (describes : ∀ value, format.Describes (write value))
    (read_write : ∀ value, read (write value) = some value ↔ ∀ n ∈ counters value, n < counterBound)
    (read_edit : ∀ {json json' value}, format.Edits json json' → read json = some value →
      read json' = some value)
    (read_again : ∀ {json value}, read json = some value → read (write value) = some value) :
    Survives write read counters format where
  describes := describes
  read_write := read_write
  read_edited edits reads := by
    induction edits with
    | refl => exact reads
    | tail _ edit ih => exact read_edit edit ih
  read_again := read_again

theorem read_edit (survives : Survives write read counters format) (edits : format.Edits json json')
    (reads : read json = some value) : read json' = some value :=
  survives.read_edited (.single edits) reads

/-! ### Values without records -/

theorem counter : Survives ofNat counter? (fun n => [n]) .plain := by
  refine of_edits (fun _ => .plain nofun nofun) (fun n => ?_) nofun (fun {json n} reads => ?_)
  · simp [ofNat, counter?]
  · cases json with
    | int i =>
      cases i with
      | ofNat m =>
        obtain ⟨small, rfl⟩ : m < counterBound ∧ m = n := by simpa [counter?] using reads
        simp [ofNat, counter?, small]
      | negSucc m => simp [counter?] at reads
    | _ => simp [counter?] at reads

theorem truth : Survives .bool bool? (fun _ => []) .plain :=
  of_edits (fun _ => .plain nofun nofun) (by simp [bool?]) nofun (by simp [bool?])

theorem text : Survives .string string? (fun _ => []) .plain :=
  of_edits (fun _ => .plain nofun nofun) (by simp [string?]) nofun (by simp [string?])

/-! ### Arrays -/

theorem mapM_eq_some_iff {β : Type} {read : β → Option α} {elements : List β} {values : List α} :
    elements.mapM read = some values ↔
      List.Forall₂ (fun value element => read element = some value) values elements := by
  induction elements generalizing values with
  | nil => simp [eq_comm]
  | cons element elements ih =>
    simp [Option.bind_eq_some_iff, List.forall₂_cons_right_iff, ih, @eq_comm _ values]

theorem array?_eq_some_iff {values : List α} :
    array? read json = some values ↔
      ∃ elements, json = .array elements ∧
        List.Forall₂ (fun value element => read element = some value) values elements := by
  cases json with
  | array elements => simp [array?, mapM_eq_some_iff]
  | _ => simp [array?]

theorem list (survives : Survives write read counters format) :
    Survives (fun values => .array (values.map write)) (array? read)
      (fun values => values.flatMap counters) (.list format) := by
  have describes (values : List α) : (Format.list format).Describes (.array (values.map write)) :=
    .list (List.forall_mem_map.2 fun value _ => survives.describes value)
  refine of_edits describes (fun values => ?_) (fun {json json' values} edits reads => ?_)
    (fun {json values} reads => ?_)
  · have again : array? read (.array (values.map write)) = some values ↔
        ∀ value ∈ values, read (write value) = some value := by
      simp [array?_eq_some_iff, List.forall₂_map_right_iff, List.forall₂_same]
    rw [again, List.forall_mem_flatMap]
    simp only [survives.read_write]
  · obtain ⟨elements, rfl, related⟩ := array?_eq_some_iff.1 reads
    cases edits with
    | element edits =>
      exact array?_eq_some_iff.2
        ⟨_, rfl, forall₂_replace (fun _ _ => survives.read_edit edits) related⟩
  · obtain ⟨elements, rfl, related⟩ := array?_eq_some_iff.1 reads
    have again : ∀ value ∈ values, read (write value) = some value :=
      forall_mem_of_forall₂ (fun _ _ first => survives.read_again first) related
    simpa [array?_eq_some_iff, List.forall₂_map_right_iff, List.forall₂_same] using again

end Survives

/-! ### Fields of records -/

/-- What an edit of a record does to one of its fields. -/
inductive FieldEdit (presence : Presence) (format : Format) : Option Json → Option Json → Prop
  | same {field : Option Json} : FieldEdit presence format field field
  | dropped (optional : presence = .optional) : FieldEdit presence format (some .null) none
  | edited {value value' : Json} (edits : format.Edits value value') :
      FieldEdit presence format (some value) (some value')

/-- What is found first stands in front of an edit. -/
theorem FieldEdit.or {presence : Presence} {format : Format} {field field' : Option Json}
    (edit : FieldEdit presence format field field') (first : Option Json) :
    FieldEdit presence format (first.or field) (first.or field') := by
  cases first with
  | none => simpa using edit
  | some value => simpa using .same

/-- An edit of a record that is written as an object, told at one of its fields. -/
theorem Format.Edits.lookup {fields : List (Text × Presence × Format)}
    {entries entries' : List (Text × Json)} {name : Text} {presence : Presence} {format : Format}
    (edits : (Format.record fields).Edits (.object entries) (.object entries'))
    (distinct : (fields.map Prod.fst).Nodup) (known : (name, presence, format) ∈ fields) :
    FieldEdit presence format (entries.lookup name) (entries'.lookup name) := by
  -- a name tells the rest of its field
  have only {presence' : Presence} {format' : Format}
      (known' : (name, presence', format') ∈ fields) : presence = presence' ∧ format = format' := by
    simpa using List.inj_on_of_nodup_map distinct known known' rfl
  cases edits with
  | @add _ before after other value unknown =>
    have ne : name ≠ other := fun same => unknown (same ▸ List.mem_map_of_mem known)
    rw [List.lookup_append, List.lookup_append, List.lookup_cons, beq_false_of_ne ne]
    exact .same
  | @drop _ before after other format' known' gone =>
    rw [List.lookup_append, List.lookup_append]
    apply FieldEdit.or
    obtain rfl | ne := eq_or_ne name other
    · have absent : after.lookup name = none := by
        rw [List.lookup_eq_none_iff]
        rintro ⟨found, value⟩ member
        exact bne_iff_ne.2 fun same => gone (same ▸ List.mem_map_of_mem member)
      rw [List.lookup_cons_self, absent]
      exact .dropped (only known').1
    · rw [List.lookup_cons, beq_false_of_ne ne]
      exact .same
  | @field _ before after other presence' format' value value' known' edits =>
    rw [List.lookup_append, List.lookup_append]
    apply FieldEdit.or
    obtain rfl | ne := eq_or_ne name other
    · obtain ⟨rfl, rfl⟩ := only known'
      rw [List.lookup_cons_self, List.lookup_cons_self]
      exact .edited edits
    · rw [List.lookup_cons, List.lookup_cons, beq_false_of_ne ne]
      exact .same

/-- A field that is there and not null is read. -/
theorem optional_some {read : Json → Option α} {json : Json} (ne : json ≠ .null) :
    Json.optional read (some json) = (read json).map some := by
  cases json with
  | null => exact absurd rfl ne
  | _ => rfl

/-- A field of a record, for one value of the record: how it is written and what is taken for it. -/
structure Part where
  name : Text
  presence : Presence
  format : Format
  counters : List Nat
  written : Json
  /-- The reader takes this for the field. -/
  Accepts : Option Json → Prop
  accepts_written : Accepts (some written) ↔ ∀ n ∈ counters, n < counterBound
  accepts_edited : ∀ {field field'}, FieldEdit presence format field field' → Accepts field →
    Accepts field'
  accepts_again : ∀ {field}, Accepts field → Accepts (some written)
  describes : (presence = .optional → written ≠ .null) → format.Describes written

namespace Part

variable {write : α → Json} {read : Json → Option α} {counters : α → List Nat} {format : Format}

/-- A field that has to be there. -/
def required (name : Text) (survives : Survives write read counters format) (value : α) : Part where
  name := name
  presence := .required
  format := format
  counters := counters value
  written := write value
  Accepts field := Json.required read field = some value
  accepts_written := survives.read_write value
  accepts_edited := by
    rintro _ _ (_ | ⟨⟨⟩⟩ | edits) accepted
    · exact accepted
    · exact survives.read_edit edits accepted
  accepts_again {field} accepted := by
    obtain ⟨json, -, reads⟩ := Option.bind_eq_some_iff.1 accepted
    exact survives.read_again reads
  describes _ := survives.describes value

/-- A field that may be missing or null. -/
def optional (name : Text) (survives : Survives write read counters format)
    (write_ne_null : ∀ value, write value ≠ .null) (value : Option α) : Part where
  name := name
  presence := .optional
  format := format
  counters := value.toList.flatMap counters
  written := ofOption write value
  Accepts field := Json.optional read field = some value
  accepts_written := by
    cases value with
    | none => simp [ofOption, Json.optional]
    | some value => simp [ofOption, optional_some (write_ne_null value), survives.read_write]
  accepts_edited := by
    rintro _ _ (_ | optional | edits) accepted
    · exact accepted
    · exact accepted
    · -- what is edited is not null, before and after
      rw [optional_some edits.ne_null.1] at accepted
      obtain ⟨found, reads, rfl⟩ := Option.map_eq_some_iff.1 accepted
      rw [optional_some edits.ne_null.2, survives.read_edit edits reads, Option.map_some]
  accepts_again {field} accepted := by
    cases value with
    | none => rfl
    | some value =>
      -- a value is accepted only where there is one, and it is not written as null
      obtain ⟨json, rfl⟩ : ∃ json, field = some json := by
        cases field with
        | none => cases accepted
        | some json => exact ⟨json, rfl⟩
      have ne : json ≠ .null := by
        rintro rfl
        cases accepted
      rw [optional_some ne] at accepted
      obtain ⟨found, reads, same⟩ := Option.map_eq_some_iff.1 accepted
      obtain rfl := Option.some.inj same
      rw [ofOption, optional_some (write_ne_null found), survives.read_again reads, Option.map_some]
  describes given := by
    cases value with
    | none => exact absurd rfl (given rfl)
    | some value => exact survives.describes value

section Accepts

variable {name : Text} {survives : Survives write read counters format} {field : Option Json}

@[simp] theorem accepts_required {value : α} :
    (required name survives value).Accepts field ↔ Json.required read field = some value :=
  .rfl

@[simp] theorem name_required {value : α} : (required name survives value).name = name := rfl

@[simp] theorem accepts_optional {ne : ∀ value, write value ≠ .null} {value : Option α} :
    (optional name survives ne value).Accepts field ↔ Json.optional read field = some value :=
  .rfl

end Accepts

/-- The field as the format of the record has it. -/
def field (part : Part) : Text × Presence × Format := (part.name, part.presence, part.format)

/-- The field as it is written. -/
def entry (part : Part) : Text × Json := (part.name, part.written)

end Part

/-! ### Records -/

variable {parts : List Part} {entries : List (Text × Json)} {elements : List Json}
  {json json' : Json}

/-- A record with these parts is read from the value. -/
def Reads (parts : List Part) (json : Json) : Prop :=
  ∃ values, json.fields? (parts.map Part.name) = some values ∧
    List.Forall₂ Part.Accepts parts values

theorem length_of_fields? {names : List Text} {values : List (Option Json)}
    (found : json.fields? names = some values) : values.length = names.length := by
  cases json with
  | object fields =>
    obtain rfl := Option.some.inj found
    exact List.length_map _
  | array elements =>
    obtain ⟨length, rfl⟩ : elements.length = names.length ∧ elements.map some = values := by
      simpa [fields?] using found
    rwa [List.length_map]
  | _ => cases found

/-- A reader that takes the fields of a record, told for one list of fields. -/
theorem bind_fields?_eq_some_iff {names : List Text} {take : List (Option Json) → Option α}
    {value : α} (names_eq : parts.map Part.name = names)
    (takes : ∀ values, values.length = parts.length →
      (take values = some value ↔ List.Forall₂ Part.Accepts parts values)) :
    (json.fields? names >>= take) = some value ↔ Reads parts json := by
  subst names_eq
  rw [Option.bind_eq_bind, Option.bind_eq_some_iff, Reads]
  refine exists_congr fun values => and_congr_right fun found => takes values ?_
  rw [length_of_fields? found, List.length_map]

theorem reads_object :
    Reads parts (.object entries) ↔ ∀ part ∈ parts, part.Accepts (entries.lookup part.name) := by
  simp [Reads, fields?, List.forall₂_map_right_iff, List.forall₂_same]

theorem reads_array :
    Reads parts (.array elements) ↔
      List.Forall₂ (fun part element => part.Accepts (some element)) parts elements := by
  simp only [Reads, fields?, List.length_map, Option.ite_none_right_eq_some, Option.some.injEq]
  constructor
  · rintro ⟨values, ⟨-, rfl⟩, related⟩
    exact List.forall₂_map_right_iff.1 related
  · intro related
    exact ⟨_, ⟨related.length_eq.symm, rfl⟩, List.forall₂_map_right_iff.2 related⟩

/-- One edit of a record leaves what is read as it is. -/
theorem Reads.edited (edits : (Format.record (parts.map Part.field)).Edits json json')
    (distinct : (parts.map Part.name).Nodup) (reads : Reads parts json) : Reads parts json' := by
  have names : (parts.map Part.field).map Prod.fst = parts.map Part.name := by
    rw [List.map_map]
    rfl
  have objects {entries entries' : List (Text × Json)}
      (edits : (Format.record (parts.map Part.field)).Edits (.object entries) (.object entries'))
      (reads : Reads parts (.object entries)) : Reads parts (.object entries') :=
    reads_object.2 fun part member =>
      part.accepts_edited (edits.lookup (names ▸ distinct) (List.mem_map_of_mem member))
        (reads_object.1 reads part member)
  cases edits with
  -- told at each field, the edits of an object are all alike
  | add unknown => exact objects (.add unknown) reads
  | drop known gone => exact objects (.drop known gone) reads
  | field known edits => exact objects (.field known edits) reads
  | @position _ before after name presence format value value' known edits =>
    -- the part beside the edited element is the one that the format has at this place
    refine reads_array.2 (forall₂_replace (fun part at_place accepted => ?_) (reads_array.1 reads))
    rw [List.getElem?_map, at_place, Option.map_some, Option.some.injEq] at known
    cases known
    exact part.accepts_edited (.edited edits) accepted

/-- In the object that is written, every field is found by its name. -/
theorem lookup_entry (distinct : (parts.map Part.name).Nodup) :
    ∀ part ∈ parts, (parts.map Part.entry).lookup part.name = some part.written := by
  induction parts with
  | nil => exact List.forall_mem_nil _
  | cons head parts ih =>
    obtain ⟨fresh, distinct⟩ := List.nodup_cons.1 distinct
    refine List.forall_mem_cons.2 ⟨List.lookup_cons_self, fun part member => ?_⟩
    have ne : part.name ≠ head.name := fun same => fresh (same ▸ List.mem_map_of_mem member)
    rw [List.map_cons, Part.entry, List.lookup_cons, beq_false_of_ne ne]
    exact ih distinct part member

/-- A record is read back if each of its parts is. -/
theorem reads_entries_iff (distinct : (parts.map Part.name).Nodup) :
    Reads parts (.object (parts.map Part.entry)) ↔
      ∀ part ∈ parts, part.Accepts (some part.written) := by
  rw [reads_object]
  exact forall₂_congr fun part member => by rw [lookup_entry distinct part member]

/-- So it is read back if its counters are in range. -/
theorem reads_entries_iff_counters (distinct : (parts.map Part.name).Nodup) :
    Reads parts (.object (parts.map Part.entry)) ↔
      ∀ n ∈ parts.flatMap Part.counters, n < counterBound := by
  rw [reads_entries_iff distinct, List.forall_mem_flatMap]
  simp only [Part.accepts_written]

/-- Whatever record is read can be written and read again. -/
theorem Reads.again (distinct : (parts.map Part.name).Nodup) (reads : Reads parts json) :
    Reads parts (.object (parts.map Part.entry)) := by
  obtain ⟨values, -, related⟩ := reads
  exact (reads_entries_iff distinct).2
    (forall_mem_of_forall₂ (fun part _ accepted => part.accepts_again accepted) related)

/-- A record is written as its format tells. -/
theorem describes_entries (parts : List Part) :
    (Format.record (parts.map Part.field)).Describes (.object (parts.map Part.entry)) := by
  refine .record ?_ fun field entry beside given => ?_
  · rw [List.map_map, List.map_map]
    rfl
  · rw [List.zip_map'] at beside
    obtain ⟨part, -, rfl, rfl⟩ := List.mem_map.1 beside
    exact part.describes given

namespace Survives

variable {write : α → Json} {read : Json → Option α} {counters : α → List Nat}

/-- A record type survives if its reader takes the parts of the record, wherever it finds them. -/
theorem record {fields : List (Text × Presence × Format)} (parts : α → List Part)
    (fields_eq : ∀ value, (parts value).map Part.field = fields)
    (distinct : (fields.map Prod.fst).Nodup)
    (counters_eq : ∀ value, counters value = (parts value).flatMap Part.counters)
    (write_eq : ∀ value, write value = .object ((parts value).map Part.entry))
    (read_iff : ∀ json value, read json = some value ↔ Reads (parts value) json) :
    Survives write read counters (.record fields) := by
  have names (value : α) : ((parts value).map Part.name).Nodup := by
    rw [← fields_eq value, List.map_map] at distinct
    exact distinct
  have describes (value : α) : (Format.record fields).Describes (write value) := by
    rw [← fields_eq value, write_eq]
    exact describes_entries (parts value)
  refine of_edits describes (fun value => ?_) (fun {json json' value} edits reads => ?_)
    (fun {json value} reads => ?_)
  · rw [read_iff, write_eq, reads_entries_iff_counters (names value), counters_eq]
  · rw [← fields_eq value] at edits
    exact (read_iff _ _).2 (((read_iff _ _).1 reads).edited edits (names value))
  · rw [read_iff, write_eq]
    exact ((read_iff _ _).1 reads).again (names value)

/-- A type with several kinds of values survives if its reader takes the kind by its name and the
parts of a value by those of its kind. -/
theorem tagged {alternatives : List (Text × Format)} (tag : α → Text) (parts : α → List Part)
    (known : ∀ value, (tag value, .record ((parts value).map Part.field)) ∈ alternatives)
    (distinct_tags : (alternatives.map Prod.fst).Nodup)
    (distinct : ∀ value, ((parts value).map Part.name).Nodup)
    (counters_eq : ∀ value, counters value = (parts value).flatMap Part.counters)
    (write_eq : ∀ value,
      write value = .object [(tag value, .object ((parts value).map Part.entry))])
    (read_iff : ∀ json value, read json = some value ↔
      ∃ entries, json = .object [(tag value, .object entries)] ∧
        Reads (parts value) (.object entries)) :
    Survives write read counters (.tagged alternatives) := by
  have describes (value : α) : (Format.tagged alternatives).Describes (write value) := by
    rw [write_eq]
    exact .tagged (known value) (describes_entries (parts value))
  refine of_edits describes (fun value => ?_) (fun {json json' value} edits reads => ?_)
    (fun {json value} reads => ?_)
  · have again : read (write value) = some value ↔
        Reads (parts value) (.object ((parts value).map Part.entry)) := by
      simp [read_iff, write_eq]
    rw [again, reads_entries_iff_counters (distinct value), counters_eq]
  · obtain ⟨entries, rfl, inner⟩ := (read_iff _ _).1 reads
    cases edits with
    | @alternative _ _ format _ held known' edits =>
      -- the name tells the kind, and the edit is one of a record of that kind
      obtain rfl : format = .record ((parts value).map Part.field) := by
        simpa using List.inj_on_of_nodup_map distinct_tags known' (known value) rfl
      obtain ⟨entries', rfl⟩ : ∃ entries', held = .object entries' := by
        cases edits <;> exact ⟨_, rfl⟩
      exact (read_iff _ _).2 ⟨entries', rfl, inner.edited edits (distinct value)⟩
  · obtain ⟨entries, -, inner⟩ := (read_iff _ _).1 reads
    exact (read_iff _ _).2 ⟨_, write_eq value, inner.again (distinct value)⟩

end Survives
end Json
end Manuscript
