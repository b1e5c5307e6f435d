import RouteDoc.CommandLine
import RouteDoc.Proofs.Finalization

/-!
# Runs of the commands

What the two commands do once what they read is there: the overrides are laid over the base one after another, and
what comes out is written.  Neither a module nor a file changes what the files hold before that, so a command
succeeds exactly when its document has a text and the text finds its place.

* `Document.mergeAll` — a document and a list of overrides;
* `CommandLine.succeeds_writeDocument_iff` — writing;
* `CommandLine.succeeds_merge_iff`, `CommandLine.succeeds_generate_iff` — the commands.
-/

namespace RouteDoc

/-- The document with overrides laid over it, one after another. -/
def Document.mergeAll (d : Document) (overrides : List Document) : Except Failure Document :=
  overrides.foldlM mergeInto d

/-- The document that a draft stands for. -/
def Draft.document (d : Draft) : Document := ⟨d.documentation.document, d.sharing⟩

namespace Draft

variable {d : Draft} {override merged : Document}

theorem mergeInto_of_open (hopen : d.documentation.finalized = false)
    (h : d.document.mergeInto override = .ok merged) :
    ∃ after, d.mergeInto override = (.ok (), after) ∧ after.documentation.finalized = false ∧
      after.document = merged := by
  cases hv : d.documentation.document.mergeInto override.value with
  | error f =>
    rw [Document.mergeInto, document, hv] at h
    cases h
  | ok v =>
    have hrun : Documentation.run (Documentation.mergeInto override.value) d.documentation =
        (.ok (), { d.documentation with document := v }) := by
      rw [Documentation.run_mergeInto, if_neg (by simp [hopen]), Documentation.run_mergeDocument, hv]
    rw [Document.mergeInto, document, hv] at h
    refine ⟨⟨{ d.documentation with document := v }, _⟩, ?_, hopen, Except.ok.inj h⟩
    rw [mergeInto, hrun]
    rfl

/-- An open draft has its document when the paths can be counted. -/
theorem finalize_of_open (hopen : d.documentation.finalized = false) :
    ∃ after, d.finalize = (if Documentation.hasLength d.documentation.countedPaths then .ok d.document
      else .error (.noLength d.documentation.countedPaths.fullKind), after) := by
  refine ⟨⟨{ d.documentation with finalized := true }, d.sharing⟩, ?_⟩
  simp only [Draft.finalize, Documentation.run_finalize_of_open hopen]
  split <;> rfl

end Draft

namespace CommandLine

/-! ### Steps -/

/-- Does the action succeed? -/
def Action.Succeeds {α : Type} (a : Action α) (s : Session) : Prop := ∃ x, (StateT.run a s).1 = .ok x

/-- The file that a call asks for. -/
def Call.output? (c : Call) : Option FileName := (c.value? "output").map FileName.ofText

/-- The format that a call asks for. -/
def Call.format (c : Call) : DocumentFormat := formatOf ((c.value? "format").getD "auto") c.output?

/-- Do the files hold these documents? -/
def Holds (f : Folder) (names : List String) (ds : List Document) : Prop :=
  List.Forall₂ (fun name d => Document.load f (FileName.ofText name) = .ok d) names ds

section Steps

variable {α β : Type} {s t : Session} {d merged : Document} {ds : List Document} {name : String} {names : List String}
  {c : Call}

theorem run_attempt (x : Except Failure α) (s : Session) :
    StateT.run (attempt x) s = (x.mapError Refusal.failure, s) := by
  cases x <;> rfl

theorem run_readDocument (h : Document.load s.workspace.folder (FileName.ofText name) = .ok d) :
    StateT.run (readDocument name) s = (.ok d, s) := by
  have hget : StateT.run (get : Action Session) s = (.ok s, s) := rfl
  rw [readDocument, run_step_bind, hget]
  simp only [h]
  rfl

/-- Overrides that can be read are laid over the base, and the session stays as it is. -/
theorem run_overlaid (h : Holds s.workspace.folder names ds) (d : Document) :
    StateT.run (overlaid "" d names) s = ((d.mergeAll ds).mapError Refusal.failure, s) := by
  induction h generalizing d with
  | nil => rfl
  | @cons name override names ds hload _ ih =>
    have hroute : ("" : String).isEmpty = true := rfl
    simp only [overlaid, run_step_bind, run_readDocument hload, run_attempt, hroute, if_true]
    rw [Document.mergeAll, List.foldlM_cons]
    cases hmerge : d.mergeInto override with
    | error f => rfl
    | ok merged => exact ih merged

theorem succeeds_save_iff (n : FileName) (text : String) (s : Session) :
    Action.Succeeds (save n text) s ↔ ∃ g, s.workspace.folder.write n text = .ok g := by
  have hget : StateT.run (get : Action Session) s = (.ok s, s) := rfl
  simp only [Action.Succeeds, save, run_step_bind, hget, run_attempt]
  cases s.workspace.folder.write n text with
  | error f => simp [Except.mapError]
  | ok g => exact ⟨fun _ => ⟨g, rfl⟩, fun _ => ⟨(), rfl⟩⟩

/-- **A document is written exactly when it has a text in the format asked for**, and the file asked for can be
written. -/
theorem succeeds_writeDocument_iff (c : Call) (d : Document) (s : Session) :
    Action.Succeeds (writeDocument c d) s ↔
      ∃ text, d.render c.format = .ok text ∧
        ∀ n, c.output? = some n → ∃ g, s.workspace.folder.write n text = .ok g := by
  have hwrite : writeDocument c d = attempt (d.render c.format) >>= fun text =>
      c.output?.elim (print text) fun n => save n text := by
    refine congrArg (attempt (d.render c.format) >>= ·) (funext fun text => ?_)
    rw [Call.output?]
    cases c.value? "output" <;> rfl
  rw [hwrite, Action.Succeeds, run_step_bind, run_attempt]
  cases d.render c.format with
  | error f => simp [Except.mapError]
  | ok text =>
    simp only [Except.mapError, Except.ok.injEq, exists_eq_left']
    cases c.output? with
    | none => exact ⟨fun _ n hn => absurd hn (Option.some_ne_none n).symm, fun _ => ⟨(), rfl⟩⟩
    | some n =>
      simp only [Option.some.injEq, forall_eq']
      exact succeeds_save_iff n text s

end Steps

/-! ### Commands -/

section Commands

variable {s : Session} {c : Call} {d merged : Document} {ds : List Document} {base target : String}
  {names others : List String} {draft : Draft} {isHeld : Bool}

/-- **What `merge` comes to**, when its documents can be read and one can be laid over the other. -/
theorem succeeds_merge_iff (hoperands : c.operands = base :: names) (hroute : c.value? "route" = none)
    (hbase : Document.load s.workspace.folder (FileName.ofText base) = .ok d)
    (hnames : Holds s.workspace.folder names ds) (hmerged : d.mergeAll ds = .ok merged) :
    Action.Succeeds (merge c) s ↔ Action.Succeeds (writeDocument c merged) s := by
  rw [Action.Succeeds, merge, hoperands]
  simp only [run_step_bind, run_readDocument hbase, hroute, Option.getD_none, run_overlaid hnames, hmerged,
    Except.mapError]
  rfl

/-- A draft that is kept leaves the files as they are. -/
theorem run_keep (target : String) (isHeld : Bool) (d : Draft) (s : Session) :
    ∃ t, StateT.run (keep target isHeld d) s = (.ok (), t) ∧ t.workspace.folder = s.workspace.folder := by
  cases isHeld with
  | false => exact ⟨s, rfl, rfl⟩
  | true => exact ⟨_, rfl, rfl⟩

/-- Overrides that can be read are laid over an open draft. -/
theorem run_overlaidDraft (target : String) (isHeld : Bool) {f : Folder} (hnames : Holds f names ds)
    (hs : s.workspace.folder = f) (hopen : draft.documentation.finalized = false)
    (hmerged : draft.document.mergeAll ds = .ok merged) :
    ∃ after t, StateT.run (overlaidDraft target isHeld draft names) s = (.ok after, t) ∧
      t.workspace.folder = f ∧ after.documentation.finalized = false ∧ after.document = merged := by
  induction hnames generalizing draft s with
  | nil => exact ⟨draft, s, rfl, hs, hopen, Except.ok.inj hmerged⟩
  | @cons name override names ds hload hnames ih =>
    rw [Document.mergeAll, List.foldlM_cons] at hmerged
    cases hstep : draft.document.mergeInto override with
    | error f => rw [hstep] at hmerged; cases hmerged
    | ok next =>
      rw [hstep] at hmerged
      obtain ⟨after, hafter, hstill, rfl⟩ := draft.mergeInto_of_open hopen hstep
      obtain ⟨t, hkeep, hfolder⟩ := run_keep target isHeld after s
      simp only [overlaidDraft, run_step_bind, run_readDocument (hs ▸ hload), hafter, hkeep, run_attempt,
        Except.mapError]
      exact ih (hfolder.trans hs) hstill hmerged

/-- **What `generate` comes to**, when its target is an open draft and its overrides can be read and laid over it. -/
theorem succeeds_generate_iff (hoperands : c.operands = target :: others)
    (htarget : StateT.run (findTarget target) s = (.ok (draft, isHeld), s))
    (hopen : draft.documentation.finalized = false)
    (hnames : Holds s.workspace.folder (c.values "merge") ds) (hmerged : draft.document.mergeAll ds = .ok merged) :
    ∃ t : Session, t.workspace.folder = s.workspace.folder ∧ (Action.Succeeds (generate c) s ↔
      Documentation.hasLength ((merged.value.get? "paths").getD (.map [])) = true ∧
        Action.Succeeds (writeDocument c merged) t) := by
  obtain ⟨after, t, hrun, hfolder, hstill, rfl⟩ := run_overlaidDraft target isHeld hnames rfl hopen hmerged
  obtain ⟨last, hlast⟩ := Draft.finalize_of_open hstill
  obtain ⟨u, hkeep, hfolder'⟩ := run_keep target isHeld last t
  refine ⟨u, hfolder'.trans hfolder, ?_⟩
  rw [Action.Succeeds, generate, hoperands]
  simp only [run_step_bind, htarget, hrun, hlast, hkeep, run_attempt]
  have hpaths : (after.document.value.get? "paths").getD (.map []) = after.documentation.countedPaths := rfl
  rw [hpaths]
  cases Documentation.hasLength after.documentation.countedPaths with
  | false => simp [Except.mapError]
  | true => simp [Except.mapError, Action.Succeeds]

end Commands

end CommandLine

end RouteDoc
