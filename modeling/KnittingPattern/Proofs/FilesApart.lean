import KnittingPattern.Proofs.FilesWritten

/-! # Files kept apart

A text that is written is what the file holds from then on, and the other files hold what they held.
So they do if a write fails, but its own file may have been emptied then, and hold a part of the
text.  A tree of files has all this: its files are apart if their paths lead to different places,
and no write makes a path lead elsewhere.  In a tree no write fails half-way.  Main theorem:
`FileTree.separates`. -/

namespace KnittingPattern

namespace FileAccess

variable {σ : Type}

/-- The text that a file holds, if it can be read as one. -/
def text? (files : FileAccess (StateM σ)) (w : σ) (path : String) : Option String :=
  ((files.read path).run w).1.toOption

/-- If a write succeeds, the file holds the text.  Of a file whose write fails nothing is said; it
may hold any text.  Either way the files are ready for more. -/
structure Commits (files : FileAccess (StateM σ)) (ready : σ → Prop) : Prop where
  ready_write : ∀ {w}, ready w → ∀ path text, ready ((files.write path text).run w).2
  written : ∀ {w w' path text}, ready w → (files.write path text).run w = (.ok (), w') →
    files.text? w' path = some text

/-- Besides, a write to one file has no effect on what the others hold, whether it succeeds or
fails, and reading has none at all.  `file` is the file that a path names. -/
structure Separates (files : FileAccess (StateM σ)) (ready : σ → Prop) {File : Type}
    (file : String → File) : Prop extends Commits files ready where
  run_read : ∀ {w}, ready w → ∀ path, ((files.read path).run w).2 = w
  apart : ∀ {w path other}, ready w → file other ≠ file path → ∀ text,
    files.text? ((files.write path text).run w).2 other = files.text? w other

theorem Separates.run_read_of_text? {files : FileAccess (StateM σ)} {ready : σ → Prop} {File : Type}
    {file : String → File} (h : files.Separates ready file) {w : σ} (hw : ready w)
    {path text : String} (htext : files.text? w path = some text) :
    (files.read path).run w = (.ok text, w) := by
  refine Prod.ext ?_ (h.run_read hw path)
  unfold text? at htext
  cases hread : ((files.read path).run w).1 with
  | error e =>
    rw [hread] at htext
    cases htext
  | ok t =>
    rw [hread] at htext
    cases htext
    rfl

end FileAccess

namespace FileTree

variable {t : FileTree} {place : List String} {path other text : String}

/-- The place that a path leads to.  A path that leads nowhere is kept as it is. -/
def placeOf (t : FileTree) (path : String) : Except String (List String) :=
  match refuse? path, (t.follow (t.origin path) (path.splitOn "/")).toOption with
  | none, some place => .ok place
  | _, _ => .error path

theorem toOption_read (t : FileTree) (path : String) : (t.read path).toOption =
    (t.placeOf path).toOption.bind fun place =>
      match t.entry? place with
      | some (.text s) => some s
      | _ => none := by
  unfold read placeOf
  cases refuse? path with
  | some e => rfl
  | none =>
    cases t.follow (t.origin path) (path.splitOn "/") with
    | error e => rfl
    | ok place =>
      simp only [bind, Except.bind, Except.toOption, Option.bind]
      cases t.entry? place with
      | none => rfl
      | some entry => cases entry <;> rfl

theorem toOption_enter_put (free : t.entry? place ≠ some .directory) (directory : List String) :
    ((t.put place (.text text)).enter directory).toOption = (t.enter directory).toOption := by
  by_cases hp : directory = place
  · subst hp
    have hne : directory ≠ [] := by
      rintro rfl
      exact free rfl
    unfold enter
    rw [entry?_put hne]
    cases hentry : t.entry? directory with
    | none => rfl
    | some entry =>
      cases entry with
      | directory => exact absurd hentry free
      | text s => rfl
      | bytes => rfl
  · rw [enter, entry?_put_of_ne hp, ← enter]

theorem toOption_follow_put (free : t.entry? place ≠ some .directory) (start names : List String) :
    ((t.put place (.text text)).follow start names).toOption = (t.follow start names).toOption := by
  induction names generalizing start with
  | nil => rfl
  | cons name names ih =>
    have henter : ((t.put place (.text text)).enter start).toOption = (t.enter start).toOption :=
      toOption_enter_put free start
    cases hd : t.enter start with
    | ok _ =>
      rw [follow_cons hd, follow_cons (enter_put free hd)]
      split_ifs
      · exact ih start
      · exact ih start.tail
      · rfl
      · exact ih (name :: start)
    | error e =>
      rw [hd] at henter
      cases hd' : (t.put place (.text text)).enter start with
      | ok _ =>
        rw [hd'] at henter
        cases henter
      | error e' =>
        rw [follow, follow, hd, hd']
        rfl

/-- No write makes a path lead elsewhere. -/
theorem placeOf_put (free : t.entry? place ≠ some .directory) (text : String) :
    (t.put place (.text text)).placeOf = t.placeOf := by
  funext path
  unfold placeOf
  rw [show (t.put place (.text text)).origin path = t.origin path from rfl,
    toOption_follow_put free]

theorem Leads.placeOf_eq (h : t.Leads path place) : t.placeOf path = .ok place := by
  obtain ⟨accepted, names, follow, enter, plain, short, free⟩ := h
  have hfollow := (follow_append [_] follow).trans (follow_file enter plain short)
  simp only [placeOf, accepted, names, hfollow, Except.toOption]

/-- The names of a path whose last one is no directory. -/
theorem names_eq {names : List String} (h : endsInDirectory (names.getLastD "") = false) :
    names = (names.reverse.dropWhile fun n => decide (n = "")).tail.reverse ++
      [names.getLastD ""] := by
  rcases List.eq_nil_or_concat names with rfl | ⟨around, name, rfl⟩
  · cases h
  · have hne : name ≠ "" := by
      rintro rfl
      simp [endsInDirectory] at h
    simp [hne]

/-- A write that succeeds is one to a place for a file. -/
theorem exists_leads_of_write {t' : FileTree} (h : t.write path text = .ok t') :
    ∃ place, t.Leads path place ∧ t' = t.put place (.text text) := by
  unfold FileTree.write at h
  cases haccepted : refuse? path with
  | some e =>
    rw [haccepted] at h
    cases h
  | none =>
    simp only [haccepted, bind, Except.bind] at h
    split at h
    · cases h
    rename_i directory hfollow
    split at h
    · cases h
    rename_i henter
    cases hplain : endsInDirectory ((path.splitOn "/").getLastD "") with
    | true =>
      rw [hplain] at h
      cases h
    | false =>
      simp only [hplain, Bool.false_eq_true, if_false] at h
      have hdirs := hplain
      simp only [endsInDirectory, Bool.or_eq_false_iff, decide_eq_false_iff_not] at hdirs
      rw [follow_cons henter, if_neg (not_or.mpr hdirs.1), if_neg hdirs.2] at h
      split_ifs at h with hlong
      simp only [follow] at h
      split at h
      · cases h
      · rename_i hfree
        cases h
        exact ⟨_, .file haccepted (names_eq hplain) hfollow henter hplain (Nat.not_lt.mp hlong)
          hfree, rfl⟩

/-- A write puts the text where the path leads, or it is refused and changes nothing. -/
theorem run_access_write_cases (t : FileTree) (path text : String) :
    (∃ place, t.Leads path place ∧
      (access.write path text).run t = (.ok (), t.put place (.text text))) ∨
    ∃ e, (access.write path text).run t = (.error e, t) := by
  cases h : t.write path text with
  | ok t' =>
    obtain ⟨place, hleads, rfl⟩ := exists_leads_of_write h
    exact .inl ⟨place, hleads, run_access_write h⟩
  | error e =>
    refine .inr ⟨e, ?_⟩
    simp only [access, StateT.run_bind, StateT.run_get, pure_bind, h]
    rfl

/-- Of a tree, a write that fails changes nothing. -/
theorem run_access_write_of_error {e : FileError} {t' : FileTree}
    (h : (access.write path text).run t = (.error e, t')) : t' = t := by
  obtain ⟨place, -, hwrite⟩ | ⟨e', hwrite⟩ := t.run_access_write_cases path text
  · cases hwrite.symm.trans h
  · cases hwrite.symm.trans h
    rfl

theorem text?_access (t : FileTree) (path : String) :
    access.text? t path = (t.read path).toOption := rfl

/-- Files are apart if their paths lead to different places. -/
theorem separates (t : FileTree) : access.Separates (fun u => u.placeOf = t.placeOf) t.placeOf where
  ready_write := by
    intro u hu path text
    obtain ⟨place, hleads, hwrite⟩ | ⟨e, hwrite⟩ := u.run_access_write_cases path text
    · rw [hwrite]
      exact (placeOf_put hleads.free text).trans hu
    · rwa [hwrite]
  written := by
    intro u u' path text _ hrun
    obtain ⟨place, hleads, hwrite⟩ | ⟨e, hwrite⟩ := u.run_access_write_cases path text
    · cases hwrite.symm.trans hrun
      rw [text?_access, hleads.read_put]
      rfl
    · cases hwrite.symm.trans hrun
  run_read _ _ := rfl
  apart := by
    intro u path other hu hother text
    obtain ⟨place, hleads, hwrite⟩ | ⟨e, hwrite⟩ := u.run_access_write_cases path text
    · rw [hwrite, text?_access, text?_access, toOption_read, toOption_read,
        placeOf_put hleads.free]
      cases hplace : u.placeOf other with
      | error e => rfl
      | ok place' =>
        have hne : place' ≠ place := by
          rintro rfl
          rw [← hu, hplace, hleads.placeOf_eq] at hother
          exact hother rfl
        simp only [Except.toOption, Option.bind, entry?_put_of_ne hne]
    · rw [hwrite]

end FileTree
end KnittingPattern
