import KnittingPattern.Pattern.Decoding
import KnittingPattern.Proofs.JsonScanning

/-! # Documents read back from JSON

A record that is written has its parts under their names, and a typed record its type before them.
A document is plain if its parts are, and nests one deeper than they do. -/

namespace KnittingPattern

/-- What is read from a list is read from its items. -/
theorem exists_of_mem_mapM {α β : Type} {read : α → Option β} {as : List α} {bs : List β}
    (h : as.mapM read = some bs) {b : β} (hb : b ∈ bs) : ∃ a ∈ as, read a = some b := by
  induction as generalizing bs with
  | nil =>
    cases h
    cases hb
  | cons a as ih =>
    rw [List.mapM_cons] at h
    obtain ⟨b', hb', h⟩ := Option.bind_eq_some_iff.mp h
    obtain ⟨bs', hbs', h⟩ := Option.bind_eq_some_iff.mp h
    cases h
    rcases List.mem_cons.mp hb with rfl | hb
    · exact ⟨a, List.mem_cons_self, hb'⟩
    · obtain ⟨a', ha', hb'⟩ := ih hbs' hb
      exact ⟨a', List.mem_cons_of_mem _ ha', hb'⟩

namespace Json

theorem lt_of_nat64? {j : Json} {n : Nat} (h : j.nat64? = some n) : n < 2 ^ 64 := by
  unfold nat64? at h
  split at h
  · split at h
    case isTrue hn =>
      cases h
      exact hn
    case isFalse => cases h
  · cases h

/-- Fields of different names are found. -/
theorem field?_of_mem {fields : List (String × Json)} (h : (fields.map Prod.fst).Nodup)
    {name : String} {j : Json} (hm : (name, j) ∈ fields) : field? fields name = some (some j) := by
  have hf : fields.filter (fun f => f.1 = name) = [(name, j)] := by
    induction fields with
    | nil => cases hm
    | cons f fields ih =>
      obtain ⟨hne, hnd⟩ := List.nodup_cons.mp h
      rcases List.mem_cons.mp hm with rfl | hm
      · have hnone : fields.filter (fun f => f.1 = name) = [] := by
          rw [List.filter_eq_nil_iff]
          intro g hg heq
          exact hne (List.mem_map.mpr ⟨g, hg, of_decide_eq_true heq⟩)
        simp [hnone]
      · have hdiff : f.1 ≠ name := fun heq => hne (List.mem_map.mpr ⟨_, hm, heq.symm⟩)
        rw [List.filter_cons_of_neg (by simpa using hdiff), ih hnd hm]
  simp only [field?, hf]

@[simp] theorem nameAmong?_text {s : String} {names : List String} (h : s ∈ names)
    (within : Bool) : (text s).nameAmong? names within = some s := if_pos h

mutual

theorem readable_of_isPlain {j : Json} (h : j.isPlain) : j.readable := by
  cases j with
  | unreadable => cases h
  | array items => exact readableItems_of_arePlain h
  | object fields => exact readableFields_of_havePlain h
  | _ => rfl

theorem readableItems_of_arePlain {js : List Json} (h : arePlain js) : readableItems js := by
  cases js with
  | nil => rfl
  | cons j js =>
    simp only [arePlain, Bool.and_eq_true] at h
    simp only [readableItems, readable_of_isPlain h.1, readableItems_of_arePlain h.2, Bool.and_self]

theorem readableFields_of_havePlain {fs : List (String × Json)} (h : havePlain fs) :
    readableFields fs := by
  cases fs with
  | nil => rfl
  | cons f fs =>
    obtain ⟨k, j⟩ := f
    simp only [havePlain, Bool.and_eq_true] at h
    simp only [readableFields, readable_of_isPlain h.1, readableFields_of_havePlain h.2,
      Bool.and_self]

end

end Json

namespace Document

theorem fieldsToJson_eq_map (fs : List (String × Document)) :
    fieldsToJson fs = fs.map fun f => (f.1, f.2.toJson) := by
  induction fs with
  | nil => rfl
  | cons f fs ih => rw [fieldsToJson, ih, List.map_cons]

/-- The parts of a record are found under their names. -/
@[simp] theorem parts?_record {fields : List (String × Document)} {names : List String}
    (hn : fields.map Prod.fst = names) (h : names.Nodup) :
    (record fields).toJson.parts? names = some (fields.map fun f => some f.2.toJson) := by
  subst hn
  have hkeys : ((fieldsToJson fields).map Prod.fst).Nodup := by
    rw [fieldsToJson_eq_map, List.map_map]
    exact h
  have hparts : ∀ fs, fs ⊆ fields → (fs.map Prod.fst).mapM (Json.field? (fieldsToJson fields)) =
      some (fs.map fun f => some f.2.toJson) := by
    intro fs hfs
    induction fs with
    | nil => rfl
    | cons f fs ih =>
      have hmem : (f.1, f.2.toJson) ∈ fieldsToJson fields := by
        rw [fieldsToJson_eq_map]
        exact List.mem_map_of_mem (hfs List.mem_cons_self)
      rw [List.map_cons, List.mapM_cons, Json.field?_of_mem hkeys hmem,
        ih (List.subset_of_cons_subset hfs)]
      rfl
  rw [toJson, Json.parts?, hparts fields (List.Subset.refl _)]

@[simp] theorem record?_record {fields : List (String × Document)} {names : List String}
    (hn : fields.map Prod.fst = names) (h : names.Nodup) :
    (record fields).toJson.record? names = some (fields.map fun f => f.2.toJson) := by
  have hall : (fields.map fun f => some f.2.toJson).mapM id =
      some (fields.map fun f => f.2.toJson) := by
    rw [List.mapM_map]
    exact List.mapM_pure
  rw [Json.record?, parts?_record hn h, Option.bind_some, hall]

/-- The type of a typed record, and the record without it. -/
@[simp] theorem typed?_typed {type : String} {fields : List (String × Document)}
    (h : "type" ∉ fields.map Prod.fst) :
    (typed type fields).toJson.typed? = some (.text type, (record fields).toJson) := by
  have hne : ∀ f ∈ fieldsToJson fields, f.1 ≠ "type" := by
    intro f hf heq
    rw [fieldsToJson_eq_map] at hf
    obtain ⟨g, hg, rfl⟩ := List.mem_map.mp hf
    exact h (List.mem_map.mpr ⟨g, hg, heq⟩)
  have hnone : (fieldsToJson fields).filter (fun f => f.1 = "type") = [] := by
    simpa [List.filter_eq_nil_iff] using hne
  have hall : (fieldsToJson fields).filter (fun f => f.1 ≠ "type") = fieldsToJson fields := by
    simpa [List.filter_eq_self] using hne
  have hfield : Json.field? (("type", .text type) :: fieldsToJson fields) "type" =
      some (some (.text type)) := by
    simp only [Json.field?, List.filter_cons_of_pos, decide_true, hnone]
  have hrest : (("type", Json.text type) :: fieldsToJson fields).filter (fun f => f.1 ≠ "type") =
      fieldsToJson fields := by
    rw [List.filter_cons_of_neg (by simp), hall]
  simp only [typed, toJson, fieldsToJson, Json.typed?, hfield, hrest]
  rfl

/-- A list is read back if each of its items is. -/
theorem mapM_itemsToJson {α : Type} {write : α → Document} {read : Json → Option α} {as : List α}
    (h : ∀ a ∈ as, read (write a).toJson = some a) :
    (itemsToJson (as.map write)).mapM read = some as := by
  induction as with
  | nil => rfl
  | cons a as ih =>
    rw [List.map_cons, itemsToJson, List.mapM_cons, h a List.mem_cons_self,
      ih fun a ha => h a (List.mem_cons_of_mem _ ha)]
    rfl

@[simp] theorem array?_list (items : List Document) :
    (list items).toJson.array? = some (itemsToJson items) := rfl

@[simp] theorem args?_brackets (args : List Document) :
    (brackets args).toJson.args? = some (itemsToJson args) := by
  simp [brackets, Json.args?]

@[simp] theorem text?_text (s : String) : (text s).toJson.text? = some s := rfl

@[simp] theorem flag?_flag (b : Bool) : (flag b).toJson.flag? = some b := rfl

theorem nat64?_natural {n : Nat} (h : n < 2 ^ 64) : (natural n).toJson.nat64? = some n :=
  if_pos h

@[simp] theorem alternative?_tagged (tag : String) (d : Document) :
    (tagged tag d).toJson.alternative? = some (tag, some d.toJson) := rfl

@[simp] theorem isPlain_text (s : String) : (text s).toJson.isPlain := rfl

@[simp] theorem isPlain_flag (b : Bool) : (flag b).toJson.isPlain := rfl

@[simp] theorem isPlain_natural (n : Nat) : (natural n).toJson.isPlain = decide (n < 2 ^ 64) := rfl

@[simp] theorem isPlain_list (ds : List Document) :
    (list ds).toJson.isPlain = ds.all fun d => d.toJson.isPlain := by
  rw [toJson, Json.isPlain]
  induction ds with
  | nil => rfl
  | cons d ds ih => rw [itemsToJson, Json.arePlain, ih, List.all_cons]

@[simp] theorem isPlain_record (fs : List (String × Document)) :
    (record fs).toJson.isPlain = fs.all fun f => f.2.toJson.isPlain := by
  rw [toJson, Json.isPlain]
  induction fs with
  | nil => rfl
  | cons f fs ih => rw [fieldsToJson, Json.havePlain, ih, List.all_cons]

@[simp] theorem isPlain_tagged (tag : String) (d : Document) :
    (tagged tag d).toJson.isPlain = d.toJson.isPlain := by
  simp only [toJson, Json.isPlain, Json.havePlain, Bool.and_true]

@[simp] theorem isPlain_typed (type : String) (fs : List (String × Document)) :
    (typed type fs).toJson.isPlain = (record fs).toJson.isPlain := by
  simp [typed]

@[simp] theorem isPlain_brackets (args : List Document) :
    (brackets args).toJson.isPlain = (list args).toJson.isPlain := by
  simp [brackets]

theorem depth_list (ds : List Document) :
    (list ds).toJson.depth = Json.depthItems (itemsToJson ds) + 1 := by
  rw [toJson, Json.depth]

theorem depth_record (fs : List (String × Document)) :
    (record fs).toJson.depth = Json.depthFields (fieldsToJson fs) + 1 := by
  rw [toJson, Json.depth]

theorem depth_brackets (args : List Document) :
    (brackets args).toJson.depth = Json.depthItems (itemsToJson args) + 2 := by
  simp [brackets, depth_record, depth_list, fieldsToJson, Json.depthFields]

/-- A typed record is a level of its own. -/
theorem exists_of_depth_typed {type : String} {fs : List (String × Document)} {n : Nat}
    (h : (typed type fs).toJson.depth ≤ n) :
    ∃ m, n = m + 1 ∧ Json.depthFields (fieldsToJson fs) ≤ m := by
  simp only [typed, depth_record, fieldsToJson, Json.depthFields] at h
  exact ⟨n - 1, by omega, by omega⟩

end Document

end KnittingPattern
