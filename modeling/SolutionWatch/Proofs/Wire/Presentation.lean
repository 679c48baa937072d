import SolutionWatch.Proofs.Json.Garbling
import SolutionWatch.Proofs.Wire.RoundTrip

/-!
# Requests that are presented in other ways

Whoever writes a request may list the fields of its objects in any order, add scalar fields of its
own, leave out a list of documents that is `null`, and space the text and escape the strings as it
likes: it is read as the same request. There are two things that the added fields must heed. An
operation is held back until its tag is found, so whatever is in it, added fields included, has to
be readable into a program, and a number out of the range of doubles is not; with one the request is
refused (`Request.Presented`). And a name has to stand for a text, wherever it is added: the reader
looks at it before it can pass the field over (`Json.HasName`).

`Presents` relates a value to those that may stand for it, and a reader `Reads` a value if it reads
every one of these as the same thing. That is shown for one type after the other, from what is found
for the fields of a record and for the tag of a tagged one.
-/

namespace SolutionWatch

open Json (Scalar Plain)

namespace Wire

/-! ## Values that may stand for another -/

/-- The fields of a record, each with a value that may stand for its own. One that is `null` may be
left out. -/
inductive Kept (rel : Json → Json → Prop) : List (String × Json) → List (String × Json) → Prop
  /-- There are no fields. -/
  | nil : Kept rel [] []
  /-- A field with another value. -/
  | keep {name : String} {value presented : Json} {fields kept : List (String × Json)}
    (hvalue : rel value presented) (hkept : Kept rel fields kept) :
    Kept rel ((name, value) :: fields) ((name, presented) :: kept)
  /-- A field that is left out. -/
  | leaveOut {name : String} {fields kept : List (String × Json)} (hkept : Kept rel fields kept) :
    Kept rel ((name, .scalar .null) :: fields) kept

/-- Fields in any order, with scalars added to them under names that are not in `names`. -/
def Shuffled (admits : Scalar → Prop) (names : List String)
    (fields presented : List (String × Json)) : Prop :=
  ∃ extra : List (String × Json), (∀ field ∈ extra, field.1 ∉ names) ∧
    (∀ field ∈ extra, ∃ value, field.2 = .scalar value ∧ admits value) ∧
      presented.Perm (fields ++ extra)

/-- The values that may stand for a value, where the scalars that may be added to a record are those
that `admits` allows. -/
inductive Presents (admits : Scalar → Prop) : Json → Json → Prop
  /-- A scalar stands for itself. -/
  | scalar (value : Scalar) : Presents admits (.scalar value) (.scalar value)
  /-- In an array, other values may stand for the items. -/
  | array {items presented : List Json} (hitems : List.Forall₂ (Presents admits) items presented) :
    Presents admits (.array items) (.array presented)
  /-- In an object, other values may stand for those of the fields, and the fields come in any order
  and with others. -/
  | object {fields kept presented : List (String × Json)}
    (hkept : Kept (Presents admits) fields kept)
    (hshuffled : Shuffled admits (fields.map Prod.fst) kept presented) :
    Presents admits (.object fields) (.object presented)

mutual

/-- A value stands for itself. -/
theorem Presents.refl {admits : Scalar → Prop} (value : Json) : Presents admits value value := by
  match value with
  | .scalar value => exact .scalar value
  | .array items => exact .array (items_refl items)
  | .object fields => exact .object (fields_refl fields) ⟨[], by simp, by simp, by simp⟩

/-- The items of an array stand for themselves. -/
theorem Presents.items_refl {admits : Scalar → Prop} (items : List Json) :
    List.Forall₂ (Presents admits) items items := by
  match items with
  | [] => exact .nil
  | item :: items => exact .cons (Presents.refl item) (items_refl items)

/-- The fields of an object stand for themselves. -/
theorem Presents.fields_refl {admits : Scalar → Prop} (fields : List (String × Json)) :
    Kept (Presents admits) fields fields := by
  match fields with
  | [] => exact .nil
  | (name, value) :: fields => exact .keep (Presents.refl value) (fields_refl fields)

end

/-! ## Records -/

section

variable {rel : Json → Json → Prop} {admits : Scalar → Prop}
  {fields kept presented : List (String × Json)}

/-- What is kept has names of the record, in their order. -/
theorem Kept.sublist (h : Kept rel fields kept) :
    (kept.map Prod.fst).Sublist (fields.map Prod.fst) := by
  induction h with
  | nil => exact .slnil
  | keep _ _ ih => exact ih.cons_cons _
  | leaveOut _ ih => exact ih.cons _

/-- What is kept stands for a field of the record. -/
theorem Kept.exists_of_mem (h : Kept rel fields kept) {field : String × Json}
    (hmem : field ∈ kept) : ∃ value, (field.1, value) ∈ fields ∧ rel value field.2 := by
  induction h with
  | nil => exact absurd hmem List.not_mem_nil
  | keep hvalue _ ih =>
    rcases List.mem_cons.mp hmem with rfl | hmem
    · exact ⟨_, List.mem_cons_self, hvalue⟩
    · obtain ⟨value, hfield, hrel⟩ := ih hmem
      exact ⟨value, List.mem_cons_of_mem _ hfield, hrel⟩
  | leaveOut _ ih =>
    obtain ⟨value, hfield, hrel⟩ := ih hmem
    exact ⟨value, List.mem_cons_of_mem _ hfield, hrel⟩

/-- What is kept is kept under another relation that holds of these values. -/
theorem Kept.imp {rel' : Json → Json → Prop} (h : Kept rel fields kept)
    (himp : ∀ value ∈ fields, ∀ other ∈ kept, rel value.2 other.2 → rel' value.2 other.2) :
    Kept rel' fields kept := by
  induction h with
  | nil => exact .nil
  | keep hvalue _ ih =>
    refine .keep (himp _ List.mem_cons_self _ List.mem_cons_self hvalue) (ih ?_)
    exact fun value hvalue other hother =>
      himp value (List.mem_cons_of_mem _ hvalue) other (List.mem_cons_of_mem _ hother)
  | leaveOut _ ih =>
    exact .leaveOut (ih fun value hvalue => himp value (List.mem_cons_of_mem _ hvalue))

/-- What is found for a field: a value that may stand for its own, or nothing if it is `null`. -/
inductive Found (rel : Json → Json → Prop) : Json → Option Json → Prop
  /-- A value. -/
  | present {value presented : Json} (hvalue : rel value presented) :
    Found rel value (some presented)
  /-- Nothing. -/
  | absent : Found rel (.scalar .null) none

/-- For every field of a record something is found among what is kept. -/
theorem Kept.found (h : Kept rel fields kept) (hnames : (fields.map Prod.fst).Nodup) :
    List.Forall₂ (Found rel) (fields.map Prod.snd)
      (fields.map fun field => (kept.find? fun f => f.1 = field.1).map Prod.snd) := by
  induction h with
  | nil => exact .nil
  | @keep name value presented fields kept hvalue _ ih =>
    obtain ⟨hname, hnames⟩ := List.nodup_cons.mp hnames
    have hothers : ∀ field ∈ fields,
        (((name, presented) :: kept).find? fun f => f.1 = field.1).map Prod.snd =
          (kept.find? fun f => f.1 = field.1).map Prod.snd := fun field hmem => by
      have hne : name ≠ field.1 := fun heq => hname (heq ▸ List.mem_map.mpr ⟨field, hmem, rfl⟩)
      rw [List.find?_cons_of_neg (by simpa using hne)]
    rw [List.map_cons, List.map_cons, List.map_congr_left hothers,
      List.find?_cons_of_pos (by simp)]
    exact .cons (.present hvalue) (ih hnames)
  | @leaveOut name fields kept hkept ih =>
    obtain ⟨hname, hnames⟩ := List.nodup_cons.mp hnames
    have hnone : (kept.find? fun f => f.1 = name) = none := List.find?_eq_none.mpr fun f hf => by
      have hkeptName : f.1 ∈ fields.map Prod.fst := hkept.sublist.subset (List.mem_map_of_mem hf)
      simpa using fun heq : f.1 = name => hname (heq ▸ hkeptName)
    rw [List.map_cons, List.map_cons, hnone]
    exact .cons .absent (ih hnames)

/-- Under a name of the record there is what is kept under it: nothing was added there. -/
theorem Shuffled.filter_eq (h : Shuffled admits (fields.map Prod.fst) kept presented)
    (hkept : Kept rel fields kept) (hnames : (fields.map Prod.fst).Nodup) {name : String}
    (hmem : name ∈ fields.map Prod.fst) :
    presented.filter (fun f => f.1 = name) = kept.filter fun f => f.1 = name := by
  obtain ⟨extra, hname, -, hperm⟩ := h
  have hextra : extra.filter (fun f => f.1 = name) = [] := List.filter_eq_nil_iff.mpr fun f hf => by
    simpa using fun heq : f.1 = name => hname f hf (heq ▸ hmem)
  have hfilter : (presented.filter fun f => f.1 = name).Perm (kept.filter fun f => f.1 = name) := by
    simpa [List.filter_append, hextra] using hperm.filter fun f => f.1 = name
  -- At most one field has the name, so its order is no matter.
  have hlength := length_filter_name_le (hkept.sublist.nodup hnames) name
  generalize kept.filter (fun f => f.1 = name) = found at hfilter hlength ⊢
  match found with
  | [] => exact List.perm_nil.mp hfilter
  | [field] => exact List.perm_singleton.mp hfilter
  | _ :: _ :: _ => simp at hlength

/-- Under the names of a record there is what is kept under them. -/
theorem Shuffled.fields?_eq (h : Shuffled admits (fields.map Prod.fst) kept presented)
    (hkept : Kept rel fields kept) (hnames : (fields.map Prod.fst).Nodup) :
    fields? (fields.map Prod.fst) (.object presented) =
      some (fields.map fun field => (kept.find? fun f => f.1 = field.1).map Prod.snd) := by
  have honce : (fields.map Prod.fst).all
      (fun name => (presented.filter fun f => f.1 = name).length ≤ 1) = true :=
    List.all_eq_true.mpr fun name hmem => by
      simpa [h.filter_eq hkept hnames hmem] using
        length_filter_name_le (hkept.sublist.nodup hnames) name
  rw [fields?, if_pos honce, List.map_map]
  refine congrArg some (List.map_congr_left fun field hmem => ?_)
  have hfind := h.filter_eq hkept hnames (List.mem_map_of_mem hmem)
  rw [Function.comp_apply, ← List.head?_filter, ← List.head?_filter, hfind]

/-- Where every value of an object is replaced, so is what is found under its names. -/
theorem fields?_map (f : Json → Json) (names : List String) (fields : List (String × Json)) :
    fields? names (.object (fields.map fun field => (field.1, f field.2))) =
      (fields? names (.object fields)).map (List.map (Option.map f)) := by
  have hlength : ∀ name : String, ((fields.map fun field => (field.1, f field.2)).filter
      fun field => field.1 = name).length = (fields.filter fun field => field.1 = name).length := by
    intro name
    rw [List.filter_map, List.length_map]
    rfl
  simp only [fields?, hlength, List.find?_map]
  split <;> simp [Function.comp_def]

end

/-! ## Readers -/

/-- A reader reads every value that may stand for `value` as `a`. -/
def Reads {α : Type} (admits : Scalar → Prop) (read : Json → Option α) (value : Json) (a : α) :
    Prop :=
  ∀ presented, Presents admits value presented → read presented = some a

section

variable {α : Type} {admits : Scalar → Prop} {read : Json → Option α} {value : Json} {a : α}
  {found : Option Json} {fields presented : List (String × Json)}

/-- A reader of scalars reads what it has read. -/
theorem reads_scalar {scalar : Scalar} (h : read (.scalar scalar) = some a) :
    Reads admits read (.scalar scalar) a := by
  rintro _ ⟨⟩
  exact h

/-- A field whose reader refuses `null` comes and is read. -/
theorem Found.required_eq (h : Found (Presents admits) value found)
    (hread : Reads admits read value a) (hnull : read (.scalar .null) = none) :
    required read found = some a := by
  cases h with
  | present h => exact hread _ h
  | absent => exact absurd (hnull.symm.trans (hread _ (.scalar .null))) (Option.some_ne_none a).symm

/-- A field that may be left out is read: as its value, or as missing if it is `null`, whether it
comes or not. -/
theorem Found.optional_eq {write : α → Json} {value : Option α}
    (h : Found (Presents admits) ((value.map write).getD .null) found)
    (hread : ∀ a, Reads admits read (write a) a)
    (hscalar : ∀ scalar, read (.scalar scalar) = none) : optional read found = some value := by
  cases value with
  | none =>
    cases h with
    | present h => cases h; rfl
    | absent => rfl
  | some a =>
    have hrequired := Found.required_eq h (hread a) (hscalar .null)
    cases found with
    | none => exact absurd hrequired (Option.some_ne_none a).symm
    | some presented =>
      change read presented = some a at hrequired
      cases presented with
      | scalar scalar =>
        exact absurd ((hscalar scalar).symm.trans hrequired) (Option.some_ne_none a).symm
      | array items => simp [optional, hrequired]
      | object fields => simp [optional, hrequired]

/-- An array is read item by item. -/
theorem reads_list {write : α → Json} (h : ∀ a, Reads admits read (write a) a) (items : List α) :
    Reads admits (list read) (.array (items.map write)) items := by
  rintro _ (_ | @⟨_, presented, hitems⟩)
  change presented.mapM read = some items
  induction items generalizing presented with
  | nil =>
    cases hitems
    rfl
  | cons item items ih =>
    obtain _ | ⟨hitem, hitems⟩ := hitems
    simp [h item _ hitem, ih hitems]

/-- For every field of a record something is found in what stands for it. -/
theorem Presents.fields?_eq {json : Json} (h : Presents admits (.object fields) json)
    (hnames : (fields.map Prod.fst).Nodup) :
    ∃ found, fields? (fields.map Prod.fst) json = some found ∧
      List.Forall₂ (Found (Presents admits)) (fields.map Prod.snd) found := by
  cases h with
  | object hkept hshuffled => exact ⟨_, hshuffled.fields?_eq hkept hnames, hkept.found hnames⟩

/-- The tag of a tagged record is found, and what stands for the record is left without it. -/
theorem Presents.untag?_eq {tag name : String} {json : Json}
    (h : Presents admits (.object ((tag, .text name) :: fields)) json)
    (hnames : (tag :: fields.map Prod.fst).Nodup) :
    ∃ others, untag? tag json = some (name, others) ∧ Presents admits (.object fields) others := by
  obtain _ | _ | ⟨hkept, hshuffled⟩ := h
  rename_i kept presented
  have htagged := hshuffled.filter_eq hkept hnames List.mem_cons_self
  obtain ⟨extra, hname, hscalar, hperm⟩ := hshuffled
  obtain ⟨htag, -⟩ := List.nodup_cons.mp hnames
  cases hkept with
  | @keep _ _ _ _ kept hvalue hkept =>
    cases hvalue
    have hkeptNames : ∀ f ∈ kept, f.1 ≠ tag := fun f hf heq =>
      htag (heq ▸ hkept.sublist.subset (List.mem_map_of_mem hf))
    have hextraNames : ∀ f ∈ extra, f.1 ≠ tag := fun f hf heq =>
      hname f hf (heq ▸ List.mem_cons_self)
    refine ⟨.object (presented.filter fun f => f.1 ≠ tag), ?_,
      .object hkept ⟨extra, ?_, hscalar, ?_⟩⟩
    · have hnone : kept.filter (fun f => f.1 = tag) = [] :=
        List.filter_eq_nil_iff.mpr (by simpa using hkeptNames)
      rw [List.filter_cons_of_pos (by simp), hnone] at htagged
      rw [untag?, htagged]
    · exact fun f hf hmem => hname f hf (List.mem_cons_of_mem _ hmem)
    · have hkeep : kept.filter (fun f => f.1 ≠ tag) = kept :=
        List.filter_eq_self.mpr (by simpa using hkeptNames)
      have hadd : extra.filter (fun f => f.1 ≠ tag) = extra :=
        List.filter_eq_self.mpr (by simpa using hextraNames)
      have hothers := hperm.filter fun f => f.1 ≠ tag
      rwa [List.cons_append, List.filter_cons_of_neg (by simp), List.filter_append, hkeep, hadd]
        at hothers

end

end Wire

/-! ## Records without a tag -/

section

open Wire

variable {admits : Scalar → Prop}

/-- A document identity is read. -/
theorem DocumentId.reads (id : DocumentId) : Reads admits ofJson? id.toJson id := by
  rintro json h
  obtain ⟨_, hfields, hfound⟩ := h.fields?_eq (by simp)
  obtain _ | ⟨hproject, _ | ⟨hindex, ⟨⟩⟩⟩ := hfound
  have hproject := hproject.required_eq (reads_scalar (ProjectId.ofJson?_toJson id.project)) rfl
  have hindex := hindex.required_eq (reads_scalar (word64_toNat id.index)) rfl
  simp only [List.map_cons, List.map_nil] at hfields
  simp [ofJson?, hfields, hproject, hindex]

/-- A span is read. -/
theorem TextSpan.reads (span : TextSpan) : Reads admits ofJson? span.toJson span := by
  rintro json h
  obtain ⟨_, hfields, hfound⟩ := h.fields?_eq (by simp)
  obtain _ | ⟨hstart, _ | ⟨hstop, ⟨⟩⟩⟩ := hfound
  have hstart := hstart.required_eq (reads_scalar (word32_toNat span.start)) rfl
  have hstop := hstop.required_eq (reads_scalar (word32_toNat span.stop)) rfl
  simp only [List.map_cons, List.map_nil] at hfields
  simp [ofJson?, hfields, hstart, hstop]

/-- A range in a document is read. -/
theorem DocumentSpan.reads (range : DocumentSpan) : Reads admits ofJson? range.toJson range := by
  rintro json h
  obtain ⟨_, hfields, hfound⟩ := h.fields?_eq (by simp)
  obtain _ | ⟨hdocument, _ | ⟨hspan, ⟨⟩⟩⟩ := hfound
  have hdocument := hdocument.required_eq range.document.reads rfl
  have hspan := hspan.required_eq range.span.reads rfl
  simp only [List.map_cons, List.map_nil] at hfields
  simp [ofJson?, hfields, hdocument, hspan]

/-- Search options are read. -/
theorem SearchOptions.reads (held : Bool) (options : SearchOptions) :
    Reads admits (ofJson? held) options.toJson options := by
  rintro json h
  obtain ⟨_, hfields, hfound⟩ := h.fields?_eq (by simp)
  obtain _ | ⟨hcascade, _ | ⟨hdirection, ⟨⟩⟩⟩ := hfound
  have hcascade := hcascade.required_eq (reads_scalar (Json.asBool?_bool options.cascade)) rfl
  have hdirection := hdirection.required_eq
    (reads_scalar (CascadeDirection.ofJson?_toJson held options.direction)) rfl
  simp only [List.map_cons, List.map_nil] at hfields
  simp [ofJson?, hfields, hcascade, hdirection]

/-- A symbol address is read. -/
theorem SymbolAddress.reads (symbol : SymbolAddress) :
    Reads admits ofJson? symbol.toJson symbol := by
  rintro json h
  obtain ⟨_, hfields, hfound⟩ := h.fields?_eq (by simp)
  obtain _ | ⟨hid, _ | ⟨hproject, _ | ⟨hname, ⟨⟩⟩⟩⟩ := hfound
  have hid := hid.required_eq (reads_scalar (SymbolId.ofJson?_toJson symbol.id)) rfl
  have hproject :=
    hproject.required_eq (reads_scalar (ProjectId.ofJson?_toJson symbol.project)) rfl
  have hname := hname.required_eq (reads_scalar (Json.asText?_text symbol.name)) rfl
  simp only [List.map_cons, List.map_nil] at hfields
  simp [ofJson?, hfields, hid, hproject, hname]

end

/-! ## Operations and requests -/

/-- A scalar that can be read into a program: every string without half of a surrogate pair, and
every number in the range of doubles. -/
def Json.Scalar.Readable (value : Scalar) : Prop := value ≠ .huge ∧ value ≠ .unpaired

/-- What stands for a plain value can be read into a program if the added scalars can. -/
theorem Json.Plain.readableWithin_of_presents {depth : ℕ} {value json : Json}
    (h : Plain depth value) (hjson : Wire.Presents Scalar.Readable value json) :
    json.readableWithin depth = true := by
  induction h generalizing json with
  | @scalar depth value plain =>
    cases hjson
    have hscalar : Plain depth (.scalar value) := .scalar plain
    exact hscalar.readableWithin
  | @array depth items _ ih =>
    cases hjson with
    | @array _ presented hitems =>
      have hpresented : ∀ item ∈ presented, item.readableWithin depth = true := by
        rintro item hitem
        obtain ⟨i, rfl⟩ := List.get_of_mem hitem
        have hi : i < items.length := by
          rw [hitems.length_eq]
          exact i.isLt
        exact ih _ (List.get_mem items ⟨i, hi⟩) (hitems.get hi i.isLt)
      simpa [Json.readableWithin, readableItems_iff] using hpresented
  | @object depth fields _ ih =>
    cases hjson with
    | @object _ kept presented hkept hshuffled =>
      obtain ⟨extra, -, hscalar, hperm⟩ := hshuffled
      have hpresented : ∀ field ∈ presented, field.2.readableWithin depth = true := by
        rintro field hfield
        rcases List.mem_append.mp (hperm.subset hfield) with hfield | hfield
        · obtain ⟨value, hvalue, hrel⟩ := hkept.exists_of_mem hfield
          exact ih _ hvalue hrel
        · obtain ⟨value, heq, hhuge, hunpaired⟩ := hscalar field hfield
          simp [heq, Json.readableWithin, hhuge, hunpaired]
      simpa [Json.readableWithin, readableFields_iff] using
        fun name value => hpresented (name, value)

/-- If what stands for a plain value can be read into a program, then the added scalars can. -/
theorem Json.Plain.presents_of_readableWithin {depth left : ℕ} {value json : Json}
    (h : Plain depth value) (hjson : Wire.Presents (fun _ => True) value json)
    (hreadable : json.readableWithin left = true) : Wire.Presents Scalar.Readable value json := by
  induction h generalizing json left with
  | scalar =>
    cases hjson
    exact .scalar _
  | @array depth items _ ih =>
    cases hjson with
    | @array _ presented hitems =>
      have hpresented : ∀ item ∈ presented, item.readableWithin (left - 1) = true := by
        simp only [Json.readableWithin, Bool.and_eq_true, readableItems_iff] at hreadable
        exact hreadable.2
      refine .array (List.forall₂_of_length_eq_of_get hitems.length_eq fun i hi hi' => ?_)
      exact ih _ (List.get_mem items ⟨i, hi⟩) (hitems.get hi hi')
        (hpresented _ (List.get_mem presented ⟨i, hi'⟩))
  | @object depth fields _ ih =>
    cases hjson with
    | @object _ kept presented hkept hshuffled =>
      obtain ⟨extra, hname, hscalar, hperm⟩ := hshuffled
      have hpresented : ∀ field ∈ kept ++ extra, field.2.readableWithin (left - 1) = true := by
        simp only [Json.readableWithin, Bool.and_eq_true, readableFields_iff] at hreadable
        exact fun field hfield => hreadable.2 field (hperm.symm.subset hfield)
      refine .object (hkept.imp fun field hfield other hother hrel => ?_)
        ⟨extra, hname, fun field hfield => ?_, hperm⟩
      · exact ih field hfield hrel (hpresented other (List.mem_append_left extra hother))
      · obtain ⟨value, heq, -⟩ := hscalar field hfield
        have hvalue := hpresented field (List.mem_append_right kept hfield)
        simp only [heq, Json.readableWithin, Bool.and_eq_true, bne_iff_ne] at hvalue
        exact ⟨value, heq, hvalue⟩

open Wire in
/-- The tag of an operation says how to read its other fields, wherever they stand. -/
theorem Operation.untag?_of_presents {admits : Scalar → Prop} (operation : Operation) {json : Json}
    (h : Presents admits operation.toJson json) :
    ∃ name fields, untag? "op" json = some (name, fields) ∧
      ofFields? name fields = some operation := by
  cases operation with
  | solutionEvent reasons =>
    obtain ⟨others, huntag, hothers⟩ := h.untag?_eq (by simp)
    obtain ⟨_, hfields, hfound⟩ := hothers.fields?_eq (by simp)
    obtain _ | ⟨hreasons, ⟨⟩⟩ := hfound
    have hreasons := hreasons.required_eq (reads_scalar (Reasons.ofJson?_toJson reasons)) rfl
    simp only [List.map_cons, List.map_nil] at hfields
    exact ⟨_, _, huntag, by simp [ofFields?, hfields, hreasons]⟩
  | projectEvent project reasons =>
    obtain ⟨others, huntag, hothers⟩ := h.untag?_eq (by simp)
    obtain ⟨_, hfields, hfound⟩ := hothers.fields?_eq (by simp)
    obtain _ | ⟨hproject, _ | ⟨hreasons, ⟨⟩⟩⟩ := hfound
    have hproject := hproject.required_eq (reads_scalar (ProjectId.ofJson?_toJson project)) rfl
    have hreasons := hreasons.required_eq (reads_scalar (Reasons.ofJson?_toJson reasons)) rfl
    simp only [List.map_cons, List.map_nil] at hfields
    exact ⟨_, _, huntag, by simp [ofFields?, hfields, hproject, hreasons]⟩
  | documentEvent document reasons =>
    obtain ⟨others, huntag, hothers⟩ := h.untag?_eq (by simp)
    obtain ⟨_, hfields, hfound⟩ := hothers.fields?_eq (by simp)
    obtain _ | ⟨hdocument, _ | ⟨hreasons, ⟨⟩⟩⟩ := hfound
    have hdocument := hdocument.required_eq document.reads rfl
    have hreasons := hreasons.required_eq (reads_scalar (Reasons.ofJson?_toJson reasons)) rfl
    simp only [List.map_cons, List.map_nil] at hfields
    exact ⟨_, _, huntag, by simp [ofFields?, hfields, hdocument, hreasons]⟩
  | findReferences symbol documents options =>
    obtain ⟨others, huntag, hothers⟩ := h.untag?_eq (by simp)
    obtain ⟨_, hfields, hfound⟩ := hothers.fields?_eq (by simp)
    obtain _ | ⟨hsymbol, _ | ⟨hdocuments, _ | ⟨hoptions, ⟨⟩⟩⟩⟩ := hfound
    have hsymbol := hsymbol.required_eq symbol.reads rfl
    have hoptions := hoptions.required_eq (options.reads true) rfl
    have hdocuments := hdocuments.optional_eq (reads_list DocumentId.reads) fun _ => rfl
    simp only [List.map_cons, List.map_nil] at hfields
    exact ⟨_, _, huntag, by simp [ofFields?, hfields, hsymbol, hdocuments, hoptions]⟩
  | findReferencesInDocuments symbol ranges options =>
    obtain ⟨others, huntag, hothers⟩ := h.untag?_eq (by simp)
    obtain ⟨_, hfields, hfound⟩ := hothers.fields?_eq (by simp)
    obtain _ | ⟨hsymbol, _ | ⟨hranges, _ | ⟨hoptions, ⟨⟩⟩⟩⟩ := hfound
    have hsymbol := hsymbol.required_eq symbol.reads rfl
    have hranges := hranges.required_eq (reads_list DocumentSpan.reads ranges) rfl
    have hoptions := hoptions.required_eq (options.reads true) rfl
    simp only [List.map_cons, List.map_nil] at hfields
    exact ⟨_, _, huntag, by simp [ofFields?, hfields, hsymbol, hranges, hoptions]⟩

/-- An operation is read where four levels of nesting are left, if added scalars are readable. -/
theorem Operation.reads (depth : ℕ) (operation : Operation) :
    Wire.Reads Scalar.Readable (ofJsonWithin? (depth + 4)) operation.toJson operation := by
  rintro json h
  obtain ⟨name, fields, huntag, hfields⟩ := operation.untag?_of_presents h
  rw [ofJsonWithin?, if_pos ((operation.plain_toJson depth).readableWithin_of_presents h), huntag,
    Option.bind_some, hfields]

/-- The values that a request may be presented as. What is added to the request itself is passed
over and can be any scalar; what is added within the operation is held back with it and has to be
readable. -/
inductive Request.Presented (request : Request Checksum) : Json → Prop
  /-- The two fields of the request, in any order and with others. -/
  | mk {kept presented : List (String × Json)}
    (hkept : Wire.Kept (Wire.Presents Scalar.Readable)
      [("checksum", request.address.toJson), ("operation", request.operation.toJson)] kept)
    (hshuffled : Wire.Shuffled (fun _ => True) ["checksum", "operation"] kept presented) :
    Presented request (.object presented)

/-- A request may be presented as its wire form. -/
theorem Request.presented_toJson (request : Request Checksum) : request.Presented request.toJson :=
  .mk (Wire.Presents.fields_refl _) ⟨[], by simp, by simp, by simp⟩

/-- A request is read from every text of every value that it may be presented as. -/
theorem Request.Presented.ofText?_eq {request : Request Checksum} {json : Json} {text : String}
    (h : request.Presented json) (htext : Json.Spells json.tokens text.toList) :
    ofText? text = .ok request := by
  obtain @⟨kept, presented, hkept, hshuffled⟩ := h
  have hfields := hshuffled.fields?_eq hkept (by simp)
  obtain _ | ⟨haddress, _ | ⟨hoperation, ⟨⟩⟩⟩ := hkept.found (by simp)
  have haddress := haddress.required_eq
    (Wire.reads_scalar (Checksum.ofJson?_toJson request.address)) rfl
  -- The request itself takes one of the levels of nesting.
  have hoperation := hoperation.required_eq (request.operation.reads 122) rfl
  simp only [List.map_cons, List.map_nil] at hfields
  have hread : ofJson? (.object presented) = some request := by
    simp [ofJson?, hfields, haddress, hoperation, Json.maxDepth]
  rw [ofText?, Json.ofText?_of_spells htext, Option.bind_some, hread]

/-- What stands for a request is an object with its two fields, of which neither can be left out. -/
theorem Request.exists_of_presents {admits : Scalar → Prop} {request : Request Checksum} {json : Json}
    (h : Wire.Presents admits request.toJson json) :
    ∃ operation presented, json = .object presented ∧
      Wire.Presents admits request.operation.toJson operation ∧
        Wire.Shuffled admits ["checksum", "operation"]
          [("checksum", request.address.toJson), ("operation", operation)] presented := by
  obtain _ | _ | @⟨_, kept, presented, hkept, hshuffled⟩ := h
  generalize hvalue : request.operation.toJson = value at hkept
  obtain _ | @⟨_, _, address, _, _, haddress, _ |
    @⟨_, _, operation, _, _, hoperation, ⟨⟩⟩ | ⟨⟩⟩ := hkept
  · cases haddress
    exact ⟨operation, presented, rfl, hoperation, hshuffled⟩
  · cases hoperation : request.operation <;> simp [hoperation, Operation.toJson] at hvalue

/-- The two fields of a request are found. -/
theorem Request.fields?_of_shuffled {admits : Scalar → Prop} {checksum operation : Json}
    {presented : List (String × Json)} (h : Wire.Shuffled admits ["checksum", "operation"]
      [("checksum", checksum), ("operation", operation)] presented) :
    Wire.fields? ["checksum", "operation"] (.object presented) = some [some checksum, some operation] :=
  h.fields?_eq (@Wire.Presents.fields_refl admits [("checksum", checksum), ("operation", operation)])
    (by simp)

/-- A request is not read where its operation cannot be read into a program. -/
theorem Request.ofJson?_eq_none {json operation : Json} {checksum : Option Json}
    (hfields : Wire.fields? ["checksum", "operation"] json = some [checksum, some operation])
    (hoperation : operation.readableWithin (Json.maxDepth - 1) ≠ true) : ofJson? json = none := by
  simp [ofJson?, hfields, Wire.required, Operation.ofJsonWithin?, hoperation]

/-- A request is refused where nothing is read from the value of its text. -/
theorem Request.ofText?_eq_error {json : Json} {text : String} (htext : Json.ofText? text = some json)
    (hread : ofJson? json = none) : ofText? text = .error (.serialization "not a request") := by
  rw [ofText?, htext, Option.bind_some, hread]

/-- Within a request, a name stands in the object itself or in its operation. -/
theorem Request.hasName_cases {request : Request Checksum} {operation : Json}
    {presented : List (String × Json)} {lost : String → Bool} {admits : Scalar → Prop}
    (hshuffled : Wire.Shuffled admits ["checksum", "operation"]
      [("checksum", request.address.toJson), ("operation", operation)] presented)
    (h : (Json.object presented).HasName lost) :
    (∃ field ∈ presented, lost field.1 = true) ∨ operation.HasName lost := by
  obtain ⟨extra, -, hscalar, hperm⟩ := hshuffled
  cases h with
  | here h => exact .inl h
  | @field _ field hmem h =>
    -- The checksum and what is added are scalars, in which there are no names.
    have hfield := hperm.subset hmem
    simp only [List.cons_append, List.nil_append, List.mem_cons] at hfield
    rcases hfield with rfl | rfl | hadded
    · cases h
    · exact .inr h
    · obtain ⟨value, heq, -⟩ := hscalar field hadded
      rw [heq] at h
      cases h

/-- A request is not read where a name stands for no text. -/
theorem Request.ofJson?_garble_eq_none {admits : Scalar → Prop} {request : Request Checksum}
    {json : Json} {lost : String → Bool} (hjson : Wire.Presents admits request.toJson json)
    (hname : json.HasName lost) : ofJson? (json.garble lost) = none := by
  obtain ⟨operation, presented, rfl, -, hshuffled⟩ := exists_of_presents hjson
  cases hany : presented.any fun f => lost f.1 with
  | true =>
    rw [Json.garble_object_of_any hany]
    rfl
  | false =>
    have hoperation : operation.HasName lost := (hasName_cases hshuffled hname).resolve_left
      fun ⟨field, hmem, hlost⟩ => List.any_eq_false.mp hany field hmem hlost
    have hfields : Wire.fields? ["checksum", "operation"]
        (.object (presented.map fun f => (f.1, f.2.garble lost))) =
          some [some (request.address.toJson.garble lost), some (operation.garble lost)] := by
      rw [Wire.fields?_map, fields?_of_shuffled hshuffled]
      rfl
    rw [Json.garble_object_of_not_any hany]
    exact ofJson?_eq_none hfields (by simp [hoperation.not_readableWithin_garble])

/-- Whatever scalars are added to a request, it is read from every text of it if those within its
operation are readable, and refused otherwise: the order of fields, blanks and escapes, and a list
of documents that is left out change nothing. Where a name stands for no text, it is refused from
every text. -/
theorem Request.read_however_presented (request : Request Checksum) {json : Json}
    (hjson : Wire.Presents (fun _ => True) request.toJson json) (text : String) :
    (Json.Spells json.tokens text.toList →
      (request.Presented json → ofText? text = .ok request) ∧
        (¬request.Presented json → ofText? text = .error (.serialization "not a request"))) ∧
      ∀ lost : String → Bool, json.HasName lost →
        Json.Spells (json.tokens.map (Json.Token.garble lost)) text.toList →
          ofText? text = .error (.serialization "not a request") := by
  refine ⟨fun htext => ⟨fun hpresented => hpresented.ofText?_eq htext, fun hnot => ?_⟩,
    fun lost hname htext => ofText?_eq_error (Json.ofText?_garble htext)
      (ofJson?_garble_eq_none hjson hname)⟩
  obtain ⟨operation, presented, rfl, hoperation, hshuffled⟩ := exists_of_presents hjson
  -- An operation that can be read has readable scalars only, so the request would be presented.
  have hunreadable : operation.readableWithin (Json.maxDepth - 1) ≠ true := fun hreadable => by
    have hpresents :=
      (request.operation.plain_toJson 122).presents_of_readableWithin hoperation hreadable
    exact hnot (.mk (.keep (.scalar _) (.keep hpresents .nil)) hshuffled)
  exact ofText?_eq_error (Json.ofText?_of_spells htext)
    (ofJson?_eq_none (fields?_of_shuffled hshuffled) hunreadable)

/-- A search for the references to a symbol everywhere. -/
def Request.searchEverywhere : Request Checksum :=
  ⟨⟨7⟩, .findReferences ⟨⟨5⟩, ⟨1⟩, "run"⟩ none ⟨true, .unidirectional⟩⟩

/-- The same search with its fields turned around, so that its tag comes last, with two fields of
the writer's own, and without a list of documents. -/
def Request.searchTurned : Json :=
  .object [("size", .nat 3),
    ("operation", .object [("note", .null),
      ("options", .object [("direction", .text "Unidirectional"), ("cascade", .bool true)]),
      ("symbol", .object [("id", .nat 5), ("project", .nat 1), ("name", .text "run")]),
      ("op", .text "findReferences")]),
    ("checksum", .nat 7)]

section

open Wire

variable {admits : Scalar → Prop}

/-- The operation of the search may be presented like this where `null` may be added. -/
theorem Request.presents_searchTurned (hnull : admits .null) :
    Presents admits searchEverywhere.operation.toJson
      (.object [("note", .null),
        ("options", .object [("direction", .text "Unidirectional"), ("cascade", .bool true)]),
        ("symbol", SymbolAddress.toJson ⟨⟨5⟩, ⟨1⟩, "run"⟩), ("op", .text "findReferences")]) := by
  have hoptions : Presents admits (SearchOptions.toJson ⟨true, .unidirectional⟩)
      (.object [("direction", .text "Unidirectional"), ("cascade", .bool true)]) :=
    .object (.keep (.scalar _) (.keep (.scalar _) .nil)) ⟨[], by simp, by simp, .swap _ _ _⟩
  exact .object (.keep (.scalar _) (.keep (.refl _) (.leaveOut (.keep hoptions .nil))))
    ⟨[("note", .null)], by simp, by simpa [Json.null] using hnull, List.reverse_perm [_, _, _, _]⟩

/-- The search may be presented like this, and what is added to its operation is readable. -/
theorem Request.presented_searchTurned : searchEverywhere.Presented searchTurned :=
  .mk (.keep (.scalar _) (.keep (presents_searchTurned (by simp [Scalar.Readable])) .nil))
    ⟨[("size", .nat 3)], by simp, by simp [Json.nat], List.reverse_perm [_, _, _]⟩

end

/-- A text of what the search is presented as, with a blank before every token. -/
def Request.searchText : String :=
  String.ofList (searchTurned.tokens.flatMap fun token => [' '] ++ token.spell)

/-- The text spells what the search is presented as. -/
theorem Request.spells_searchText : Json.Spells searchTurned.tokens searchText.toList := by
  have hnat : ∀ {n depth : ℕ}, n < 10 → Plain depth (.nat n) := fun h =>
    .scalar (.nat (h.trans (by decide)))
  have hplain : Plain 3 searchTurned := by simp [searchTurned, hnat]
  rw [searchText, String.toList_ofList]
  exact hplain.spells_flatMap_spell (fun _ => [' ']) fun _ => rfl

/-- The search is read from the text. -/
theorem Request.read_however_presented_of_searchText :
    Wire.Presents (fun _ => True) searchEverywhere.toJson searchTurned ∧
      Json.Spells searchTurned.tokens searchText.toList ∧
        searchEverywhere.Presented searchTurned ∧ ofText? searchText = .ok searchEverywhere := by
  have hpresents : Wire.Presents (fun _ => True) searchEverywhere.toJson searchTurned :=
    .object (.keep (.scalar _) (.keep (presents_searchTurned trivial) .nil))
      ⟨[("size", .nat 3)], by simp, by simp [Json.nat], List.reverse_perm [_, _, _]⟩
  have hread := read_however_presented searchEverywhere hpresents searchText
  exact ⟨hpresents, spells_searchText, presented_searchTurned,
    (hread.1 spells_searchText).1 presented_searchTurned⟩

/-- A request about a solution event, with fields added to it and to its operation. -/
def Request.eventWith (outer inner : List (String × Json)) : Json :=
  .object (("checksum", .nat 1) :: ("operation", .object (("op", .text "solutionEvent") ::
    ("reasons", .nat 1) :: inner)) :: outer)

/-- The event with a number out of the range of doubles added to its operation. -/
def Request.eventWithHuge : Json := eventWith [] [("x", .scalar .huge)]

/-- The text of the event with the number. -/
def Request.eventWithHugeText : String :=
  "\x7b\"checksum\":1,\"operation\":\x7b\"op\":\"solutionEvent\",\"reasons\":1,\"x\":1e999\x7d\x7d"

/-- The event with a field added to the request, whose name is to stand for no text. -/
def Request.eventWithField : Json := eventWith [("x", .nat 0)] []

/-- The text of the event with the field. -/
def Request.eventWithFieldText : String :=
  "\x7b\"checksum\":1,\"operation\":\x7b\"op\":\"solutionEvent\",\"reasons\":1\x7d,\"\\ud800\":0\x7d"

/-- The text spells the event with the number. -/
theorem Request.spells_eventWithHugeText :
    Json.Spells eventWithHuge.tokens eventWithHugeText.toList := by
  have htext : eventWithHugeText.toList =
      eventWithHuge.tokens.flatMap fun token => [] ++ token.spell := by
    decide +kernel
  have hone : Scalar.Plain (.nat 1) := .nat (by decide)
  rw [htext]
  refine Json.spells_flatMap_spell (fun _ => []) (fun _ => rfl) ?_
  simp [eventWithHuge, eventWith, Json.tokens, Json.fieldTokens, Json.nat, Json.text,
    Scalar.Plain.literal_spell, Scalar.Plain.text, hone, Scalar.literal_huge]

/-- The text spells the event with the field, with a name that stands for no text. -/
theorem Request.spells_eventWithFieldText :
    Json.Spells (eventWithField.tokens.map (Json.Token.garble (· = "x")))
      eventWithFieldText.toList := by
  have htext : eventWithFieldText.toList =
      (eventWithField.tokens.map (Json.Token.garble (· = "x"))).flatMap
        fun token => [] ++ token.spell := by
    decide +kernel
  have hzero : Scalar.Plain (.nat 0) := .nat (by decide)
  have hone : Scalar.Plain (.nat 1) := .nat (by decide)
  rw [htext]
  refine Json.spells_flatMap_spell (fun _ => []) (fun _ => rfl) ?_
  simp [eventWithField, eventWith, Json.tokens, Json.fieldTokens, Json.nat, Json.text,
    Json.Token.garble, Scalar.garble, Scalar.Plain.literal_spell, Scalar.Plain.text, hzero, hone,
    Scalar.literal_unpaired]

open Wire in
/-- A request is refused because of a field that it does not have. In its operation a number is enough:
the operation is held back with all of its fields, and this one cannot be. In the request itself it is
the name, which stands for no text. -/
theorem Request.refused_when_added :
    (Presents (fun _ => True) (toJson ⟨⟨1⟩, .solutionEvent ⟨1⟩⟩) eventWithHuge ∧
      Json.Spells eventWithHuge.tokens eventWithHugeText.toList ∧
        ofText? eventWithHugeText = .error (.serialization "not a request")) ∧
    Presents (fun _ => True) (toJson ⟨⟨1⟩, .solutionEvent ⟨1⟩⟩) eventWithField ∧
      Json.Spells (eventWithField.tokens.map (Json.Token.garble (· = "x")))
        eventWithFieldText.toList ∧
          ofText? eventWithFieldText = .error (.serialization "not a request") := by
  have hoperation : Presents (fun _ => True) (Operation.toJson (.solutionEvent ⟨1⟩))
      (.object [("op", .text "solutionEvent"), ("reasons", .nat 1), ("x", .scalar .huge)]) :=
    .object (Presents.fields_refl _) ⟨[("x", .scalar .huge)], by simp, by simp, .refl _⟩
  refine ⟨⟨.object (.keep (.scalar _) (.keep hoperation .nil)) ⟨[], by simp, by simp, .refl _⟩,
    spells_eventWithHugeText, ?_⟩, .object (Presents.fields_refl _)
      ⟨[("x", .nat 0)], by simp, by simp [Json.nat], .refl _⟩, spells_eventWithFieldText, ?_⟩
  · exact ofText?_eq_error (Json.ofText?_of_spells spells_eventWithHugeText) rfl
  · exact ofText?_eq_error (Json.ofText?_garble spells_eventWithFieldText) rfl

end SolutionWatch
