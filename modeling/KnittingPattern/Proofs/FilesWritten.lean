import KnittingPattern.Files.Tree
import Mathlib.Tactic.SplitIfs

/-! # Files read back

A text that is written to a file of a tree is read back from it, and can be replaced by another one.
Writing changes one place, which is no directory, so paths lead where they led before.  Main
theorem: `FileTree.keeps`. -/

namespace KnittingPattern

/-- As long as the files are ready for it, a text can be written at the path, and is what the file
holds then. -/
structure FileAccess.Keeps {σ : Type} (files : FileAccess (StateM σ)) (path : String)
    (ready : σ → Prop) : Prop where
  write : ∀ {w : σ}, ready w → ∀ text, ∃ w', (files.write path text).run w = (.ok (), w') ∧
    ready w' ∧ (files.read path).run w' = (.ok text, w')

namespace FileTree

variable {t : FileTree} {place : List String} {entry : FileEntry}

theorem entry?_put (h : place ≠ []) : entry? (t.put place entry) place = some entry := by
  cases place with
  | nil => exact absurd rfl h
  | cons name names => simp [put, entry?]

theorem entry?_put_of_ne {other : List String} (h : other ≠ place) :
    entry? (t.put place entry) other = t.entry? other := by
  cases other with
  | nil => rfl
  | cons name names =>
    have hfilter : (t.entries.filter fun e => decide (e.1 ≠ place)).find?
        (fun e => decide (e.1 = name :: names)) =
          t.entries.find? fun e => decide (e.1 = name :: names) := by
      rw [List.find?_filter]
      congr 1
      funext e
      by_cases he : e.1 = name :: names <;> simp [he, h]
    simp only [put, entry?]
    rw [List.find?_cons_of_neg (by simpa using h.symm), hfilter]

theorem enter_put {directory : List String} (h : t.entry? place ≠ some .directory)
    (hd : t.enter directory = .ok ()) : (t.put place entry).enter directory = .ok () := by
  by_cases hp : directory = place
  · subst hp
    unfold enter at hd
    split at hd
    · cases hd
    · contradiction
    · cases hd
  · rwa [enter, entry?_put_of_ne hp, ← enter]

theorem enter_of_follow {start stop : List String} {name : String} {names : List String}
    (h : t.follow start (name :: names) = .ok stop) : t.enter start = .ok () := by
  cases hd : t.enter start with
  | ok _ => rfl
  | error e =>
    rw [follow, hd] at h
    cases h

theorem follow_cons {start : List String} (h : t.enter start = .ok ()) (name : String)
    (names : List String) :
    t.follow start (name :: names) =
      if name = "" ∨ name = "." then t.follow start names
      else if name = ".." then t.follow start.tail names
      else if 255 < name.utf8ByteSize then .error .nameTooLong
      else t.follow (name :: start) names := by
  rw [follow, h]
  rfl

theorem follow_put (h : t.entry? place ≠ some .directory) {start stop : List String}
    {names : List String} (hf : t.follow start names = .ok stop) :
    (t.put place entry).follow start names = .ok stop := by
  induction names generalizing start with
  | nil => exact hf
  | cons name names ih =>
    have hd := enter_of_follow hf
    rw [follow_cons hd] at hf
    rw [follow_cons (enter_put h hd)]
    split_ifs at hf ⊢
    · exact ih hf
    · exact ih hf
    · exact ih hf

theorem follow_append {start middle : List String} {xs : List String} (ys : List String)
    (h : t.follow start xs = .ok middle) : t.follow start (xs ++ ys) = t.follow middle ys := by
  induction xs generalizing start with
  | nil => cases h; rfl
  | cons name names ih =>
    have hd := enter_of_follow h
    rw [follow_cons hd] at h
    rw [List.cons_append, follow_cons hd]
    split_ifs at h ⊢
    · exact ih h
    · exact ih h
    · exact ih h

/-- A path leads to a place for a file: the last name of the path, in the directory that the names
before it lead to. -/
inductive Leads (t : FileTree) (path : String) : List String → Prop
  | file {around : List String} {name : String} {directory : List String}
    (accepted : refuse? path = none) (names : path.splitOn "/" = around ++ [name])
    (follow : t.follow (t.origin path) around = .ok directory) (enter : t.enter directory = .ok ())
    (plain : endsInDirectory name = false) (short : name.utf8ByteSize ≤ 255)
    (free : t.entry? (name :: directory) ≠ some .directory) : Leads t path (name :: directory)

theorem follow_file {directory : List String} {name : String} (hd : t.enter directory = .ok ())
    (plain : endsInDirectory name = false) (short : name.utf8ByteSize ≤ 255) :
    t.follow directory [name] = .ok (name :: directory) := by
  simp only [endsInDirectory, Bool.or_eq_false_iff, decide_eq_false_iff_not] at plain
  rw [follow_cons hd, if_neg (not_or.mpr plain.1), if_neg plain.2, if_neg (Nat.not_lt.mpr short)]
  rfl

theorem Leads.write {path : String} (h : t.Leads path place) (text : String) :
    t.write path text = .ok (t.put place (.text text)) := by
  obtain ⟨accepted, names, follow, enter, plain, short, free⟩ := h
  rename_i around name directory
  have hlast : (around ++ [name]).getLastD "" = name := by simp
  have haround : ((around ++ [name]).reverse.dropWhile fun n => decide (n = "")).tail.reverse =
      around := by
    have hne : name ≠ "" := by
      rintro rfl
      cases plain
    simp [hne]
  unfold FileTree.write
  simp only [accepted, names, hlast, haround, follow, plain, bind, Except.bind, enter,
    follow_file enter plain short, Bool.false_eq_true, if_false]

theorem Leads.read_put {path text : String} (h : t.Leads path place) :
    (t.put place (.text text)).read path = .ok text := by
  obtain ⟨accepted, names, follow, enter, plain, short, free⟩ := h
  rename_i around name directory
  have hfollow : (t.put (name :: directory) (.text text)).follow
      (t.origin path) (path.splitOn "/") =
        .ok (name :: directory) := by
    rw [names, follow_append [name] (follow_put free follow)]
    exact follow_file (enter_put free enter) plain short
  have horigin : (t.put (name :: directory) (.text text)).origin path = t.origin path := rfl
  unfold read
  simp only [accepted, horigin, hfollow, bind, Except.bind, entry?_put (List.cons_ne_nil _ _)]

theorem Leads.free {path : String} (h : t.Leads path place) : t.entry? place ≠ some .directory := by
  obtain ⟨accepted, names, follow, enter, plain, short, free⟩ := h
  exact free

/-- A path leads where it led before, when a text is put at a place that is no directory. -/
theorem Leads.put {path : String} (h : t.Leads path place) {other : List String}
    (hother : t.entry? other ≠ some .directory) (text : String) :
    (t.put other (.text text)).Leads path place := by
  obtain ⟨accepted, names, follow, enter, plain, short, free⟩ := h
  refine .file accepted names (follow_put hother follow) (enter_put hother enter) plain short ?_
  rename_i around name directory
  by_cases hplace : name :: directory = other
  · subst hplace
    rw [entry?_put (List.cons_ne_nil _ _)]
    simp
  · rwa [entry?_put_of_ne hplace]

theorem run_access_write {path text : String} {t' : FileTree} (h : t.write path text = .ok t') :
    (access.write path text).run t = (.ok (), t') := by
  simp only [access, StateT.run_bind, StateT.run_get, pure_bind, h]
  rfl

theorem run_access_read (path : String) : (access.read path).run t = (t.read path, t) := rfl

/-- A tree keeps what is written at a path that leads to a place for a file. -/
theorem keeps (path : String) : access.Keeps path fun t => ∃ place, t.Leads path place where
  write := by
    rintro t ⟨place, h⟩ text
    refine ⟨t.put place (.text text), run_access_write (h.write text), ⟨place, h.put h.free text⟩, ?_⟩
    rw [run_access_read, h.read_put]

/-- A name leads to a file of that name in the current directory. -/
theorem leads_empty_of_name {name : String} (accepted : refuse? name = none)
    (names : name.splitOn "/" = [name]) (relative : empty.origin name = ["work"])
    (plain : endsInDirectory name = false) (short : name.utf8ByteSize ≤ 255) :
    empty.Leads name [name, "work"] := by
  have follow : empty.follow (empty.origin name) [] = .ok ["work"] := by rw [relative]; rfl
  exact .file accepted names follow rfl plain short (by simp [empty, entry?])

theorem leads_empty_letter {name : String} (h : name = "p" ∨ name = "t") :
    empty.Leads name [name, "work"] := by
  have names : name.splitOn "/" = [name] := by
    rcases h with rfl | rfl <;>
    · rw [String.splitOn, if_neg (by decide), String.splitOnAux.eq_1, if_neg (by decide),
        if_neg (by decide), String.splitOnAux.eq_1, if_pos (by decide)]
      decide
  rcases h with rfl | rfl <;>
    exact leads_empty_of_name (by decide) names (by decide +kernel) (by decide) (by decide)

theorem leads_empty : empty.Leads "s.json" ["s.json", "work"] := by
  have names : "s.json".splitOn "/" = ["s.json"] := by
    rw [String.splitOn, if_neg (by decide)]
    iterate 6 rw [String.splitOnAux.eq_1, if_neg (by decide), if_neg (by decide)]
    rw [String.splitOnAux.eq_1, if_pos (by decide)]
    decide
  exact leads_empty_of_name (by decide) names (by decide +kernel) (by decide) (by decide)

end FileTree
end KnittingPattern
