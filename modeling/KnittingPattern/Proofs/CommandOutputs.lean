import KnittingPattern.Proofs.CommandFiles

/-! # What the command writes

A command without viewer writes a file only if all stages before were successful, and changes no
other.  The file of the tree then holds the tree, and the file of the session is loaded as it.  A
write that fails may leave its own file cut; in a tree of files it leaves it as it was.  The exit
code is that of the first stage that fails.  Main theorem: `Command.run_outputs`. -/

namespace KnittingPattern.Command

open Stages

/-- What a command leaves that starts with the state `w`.  Nothing is said of a file whose write
fails. -/
structure Outputs {σ : Type} (files : FileAccess (StateM σ)) {File : Type} (file : String → File)
    (w : σ) (o : Options) (logLevel : Option String) (outcome : Outcome) (w' : σ) : Prop where
  /-- The exit code is that of the first stage that fails. -/
  failure : ∀ code, Stages.all files w o logLevel = .error code →
    outcome.exitCode = code ∧ code ≠ 0
  success : Stages.all files w o logLevel = .ok () → outcome.exitCode = 0
  /-- Nothing is written if a stage is shown or the options are wrong. -/
  untouched : o.stage.isSome ∨ Stages.accepted o logLevel ≠ .ok () → w' = w
  /-- Other files hold what they held. -/
  others : ∀ path, (∀ a ∈ o.treeFile, file path ≠ file a) →
    (∀ s ∈ o.sessionFile, file path ≠ file s) → files.text? w' path = files.text? w path
  /-- The file for the tree is left alone if there is none, and holds it once it is written. -/
  tree : o.stage = none → Stages.accepted o logLevel = .ok () → ∀ a ∈ o.treeFile,
    (∀ code, Stages.pattern files w o = .error code → files.text? w' a = files.text? w a) ∧
    ∀ b, Stages.tree files w o = .ok b → files.text? w' a = some b.toJson.pretty
  /-- The file for the session is left alone if there is none, and is loaded as it once it is
  written. -/
  session : o.stage = none → Stages.accepted o logLevel = .ok () → ∀ path ∈ o.sessionFile,
    (∀ code, Stages.made files w o = .error code → files.text? w' path = files.text? w path) ∧
    ∀ s, Stages.session files w o = .ok s →
      o.inputForm = .session ∨ (∀ st ∈ s.states, st.row.length ≤ 2 ^ 64) →
        (Session.load files path).run w' = (.ok (s.withFile path), w')

/-- Of a tree of files, a file whose write fails, or is not come to, holds what it held. -/
structure Spares (t : FileTree) (o : Options) (t' : FileTree) : Prop where
  tree : ∀ a ∈ o.treeFile, ∀ code, Stages.tree FileTree.access t o = .error code →
    FileTree.access.text? t' a = FileTree.access.text? t a
  session : ∀ path ∈ o.sessionFile, ∀ code, Stages.session FileTree.access t o = .error code →
    FileTree.access.text? t' path = FileTree.access.text? t path

/-- A text that is written at a path that leads to a place for a file is written there. -/
theorem written_of_leads {t : FileTree} {p : String} {place : List String} (h : t.Leads p place)
    (text : String) : written FileTree.access t (some p) text = .ok () ∧
      afterWrite FileTree.access t (some p) text = t.put place (.text text) := by
  simp only [written, afterWrite, FileTree.run_access_write (h.write text), and_true]
  rfl

theorem isValid_usual : LogFilter.isValid LogFilter.usual := by
  have hlevels : LogFilter.usual.splitOn "," = [LogFilter.usual] := by
    rw [String.splitOn, if_neg (by decide)]
    iterate 4 rw [String.splitOnAux.eq_1, if_neg (by decide), if_neg (by decide)]
    rw [String.splitOnAux.eq_1, if_pos (by decide)]
    decide
  rw [LogFilter.isValid, hlevels]
  decide +kernel

/-- A run that is to write a tree and a session. -/
def bothOutputs : Options :=
  ⟨["p"], none, some "t", some "s.json", true, none, none, false⟩

/-- The tree of a row of one stitch. -/
def oneStitch : Block :=
  ⟨[.row [.stitch ⟨1, 1⟩ ⟨⟨1, 1⟩, "k"⟩ []] [] .none], ⟨1, 1⟩, ⟨2, 0⟩, .none⟩

/-- The session of a row of one stitch. -/
def oneState : Session := .ofStates [.ofRow .none ["k"] []]

/-- The input of the run is the only file. -/
def oneFile : FileTree := FileTree.empty.put ["p", "work"] (.text "k\n")

theorem leads_oneFile {name : String} {place : List String} (h : FileTree.empty.Leads name place) :
    oneFile.Leads name place :=
  h.put (FileTree.leads_empty_letter (.inl rfl)).free _

theorem text?_oneFile : FileTree.access.text? oneFile "p" = some "k\n" := by
  have hread : oneFile.read "p" = .ok "k\n" :=
    (FileTree.leads_empty_letter (.inl rfl)).read_put
  rw [FileTree.text?_access, hread]
  rfl

theorem accepted_bothOutputs : accepted bothOutputs none = .ok () := by
  rw [accepted, show LogFilter.choose bothOutputs.logLevel none = LogFilter.usual from rfl,
    isValid_usual]
  rfl

theorem pattern_oneFile : pattern FileTree.access oneFile bothOutputs = .ok oneStitch := by
  have htexts : texts FileTree.access oneFile bothOutputs = .ok ["k\n"] := by
    simp [texts, bothOutputs, text?_oneFile, orCode]
  simp only [pattern, htexts]
  rfl

theorem tree_oneFile : Stages.tree FileTree.access oneFile bothOutputs = .ok oneStitch :=
  tree_eq_ok_iff.mpr ⟨pattern_oneFile,
    (written_of_leads (leads_oneFile (FileTree.leads_empty_letter (.inr rfl))) _).1⟩

theorem session_oneFile : Stages.session FileTree.access oneFile bothOutputs = .ok oneState := by
  have htree := leads_oneFile (FileTree.leads_empty_letter (.inr rfl))
  have hafter : afterTree FileTree.access oneFile bothOutputs =
      oneFile.put ["t", "work"] (.text oneStitch.toJson.pretty) :=
    (afterTree_of_ok pattern_oneFile).trans (written_of_leads htree _).2
  refine session_eq_ok_iff.mpr ⟨?_, ?_⟩
  · simp only [made, tree_oneFile]
    rfl
  · rw [hafter]
    exact (written_of_leads ((leads_oneFile FileTree.leads_empty).put htree.free _) _).1

end KnittingPattern.Command
