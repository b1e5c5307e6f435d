import RouteDoc.Proofs.Calls

/-!
# Finalized documentations

What is left to calls once a documentation has been finalized: nothing.  Every call that would change it is
refused, a handler being read first, and the document, the registry and the tags stay as they were when the
documentation was finalized for the first time.  The first call to finalize counts the paths, so it gives the
document only when the paths can be counted; every later one gives it.

* `Call.refusal?` — what a finalized documentation answers to a call;
* `Documentation.after_of_finalized`, `Documentation.afterCalls_of_finalized` — one call, and any run of calls;
* `Documentation.finalized_for_good` — the documentation after its first finalization, in full.
-/

namespace RouteDoc

namespace Call

/-- The failure with which a finalized documentation answers a call.  A handler is read before the
documentation is asked, so what is wrong with the handler comes first. -/
def refusal? : Call → Option Failure
  | tagsFor _ _ | finalize => none
  | registerHandler scope method path handler tags =>
    match Route.ofHandler scope.types method path handler tags with
    | .ok _ => some .finalized
    | .error f => some f
  | tag _ _ _ | register _ _ | mergeInto _ | mergeRoute _ _ => some .finalized

/-- The calls that look at a documentation without changing what it holds. -/
def onlyReads : Call → Bool
  | tagsFor _ _ | finalize => true
  | _ => false

theorem refusal?_eq_none_iff (c : Call) : c.refusal? = none ↔ c.onlyReads = true := by
  cases c with
  | registerHandler scope method path handler tags =>
    simp only [refusal?, onlyReads]
    cases Route.ofHandler scope.types method path handler tags <;> simp
  | _ => simp [refusal?, onlyReads]

end Call

namespace Documentation

variable {d : Documentation}

/-! ### One call -/

/-- The paths of a document as they are counted. -/
def countedPaths (d : Documentation) : Value := (d.document.get? "paths").getD (.map [])

theorem run_finalize_of_finalized (h : d.finalized = true) : run finalize d = (.ok d.document, d) := by
  simp [finalize, run_bind, h]

/-- The first call to finalize gives the document when its paths can be counted; the documentation is finalized
either way. -/
theorem run_finalize_of_open (h : d.finalized = false) :
    run finalize d =
      (if hasLength d.countedPaths then .ok d.document else .error (.noLength d.countedPaths.fullKind),
        { d with finalized := true }) := by
  have hset : run (set { d with finalized := true } : Edit Unit) d = (.ok (), { d with finalized := true }) := rfl
  simp only [finalize, run_bind, run_get, h, Bool.not_false, if_true, hset]
  by_cases hlen : hasLength d.countedPaths = true
  · rw [countedPaths] at hlen
    simp [countedPaths, hlen]
  · rw [countedPaths] at hlen
    simp [countedPaths, hlen]

/-- **A call on a finalized documentation** is answered by its refusal, if it has one, and changes nothing. -/
theorem run_edit_of_finalized (h : d.finalized = true) (c : Call) :
    (run c.edit d).2 = d ∧ c.failure? d = c.refusal? := by
  have hregister : ∀ scope route, run (register scope route) d = (.error .finalized, d) :=
    fun scope route => run_register_of_finalized h scope route
  cases c with
  | tag path methods tags =>
    have hrun := run_tag_of_finalized h path methods tags
    simp [Call.edit, Call.failure?, Call.refusal?, hrun]
  | tagsFor path method => exact ⟨rfl, rfl⟩
  | register scope route =>
    rw [Call.failure?, Call.edit, Call.run_discard, hregister]
    exact ⟨rfl, rfl⟩
  | registerHandler scope method path handler tags =>
    simp only [Call.edit, Call.failure?, Call.refusal?, Call.run_discard, run_registerHandler]
    cases Route.ofHandler scope.types method path handler tags with
    | ok route => simp [hregister, Except.map]
    | error f => simp [Except.map]
  | mergeInto override =>
    have hrun : run (mergeInto override) d = (.error .finalized, d) := by rw [run_mergeInto, if_pos h]
    simp [Call.edit, Call.failure?, Call.refusal?, hrun]
  | mergeRoute path override =>
    have hrun : run (mergeRoute path override) d = (.error .finalized, d) := by rw [run_mergeRoute, if_pos h]
    simp [Call.edit, Call.failure?, Call.refusal?, hrun]
  | finalize =>
    rw [Call.failure?, Call.edit, Call.run_discard, run_finalize_of_finalized h]
    exact ⟨rfl, rfl⟩

theorem after_of_finalized (h : d.finalized = true) (c : Call) : c.after d = d := (run_edit_of_finalized h c).1

/-! ### Runs -/

/-- **A run of calls on a finalized documentation changes nothing.** -/
theorem afterCalls_of_finalized (h : d.finalized = true) (calls : List Call) : d.afterCalls calls = d := by
  induction calls with
  | nil => rfl
  | cons c calls ih => rw [afterCalls_cons, after_of_finalized h, ih]

/-- Only a call to finalize finalizes. -/
theorem finalized_after (h : d.finalized = false) {c : Call} (hc : c ≠ .finalize) : (c.after d).finalized = false := by
  cases hr : c.route? with
  | some sr =>
    obtain ⟨scope, route⟩ := sr
    rw [Call.after_of_route? hr, run_register h]
    split
    · next o b _ =>
      obtain ⟨v, hv⟩ := publish_frame d.registry route o { d with registry := b.registry, warnings := b.warnings }
      rw [hv]
      exact h
    · exact h
  | none =>
    cases c with
    | tag path methods tags =>
      obtain ⟨table, ht⟩ := Call.after_tag path methods tags d
      rw [ht]
      exact h
    | tagsFor path method => exact h
    | register scope route => cases hr
    | registerHandler scope method path handler tags =>
      obtain ⟨f, hf⟩ := Call.run_registerHandler_of_route?_eq_none (d := d) hr
      rwa [Call.after, hf]
    | mergeInto override =>
      rw [Call.after_mergeInto, if_neg (by simp [h])]
      split <;> exact h
    | mergeRoute path override =>
      rw [Call.after_mergeRoute, if_neg (by simp [h])]
      split <;> exact h
    | finalize => exact absurd rfl hc

theorem finalized_afterCalls (h : d.finalized = false) {calls : List Call} (hcalls : Call.finalize ∉ calls) :
    (d.afterCalls calls).finalized = false := by
  induction calls generalizing d with
  | nil => exact h
  | cons c calls ih =>
    have hc : c ≠ .finalize := fun heq => hcalls (heq ▸ List.mem_cons_self)
    have hrest : Call.finalize ∉ calls := fun hin => hcalls (List.mem_cons_of_mem _ hin)
    rw [afterCalls_cons]
    exact ih (finalized_after h hc) hrest

theorem afterCalls_append (d : Documentation) (calls more : List Call) :
    d.afterCalls (calls ++ more) = (d.afterCalls calls).afterCalls more := by
  induction calls generalizing d with
  | nil => rfl
  | cons c calls ih => rw [List.cons_append, afterCalls_cons, ih, afterCalls_cons]

/-- **What is finalized stays as it is.**  Let a documentation be finalized for the first time after any calls, and
let any calls follow, failing ones among them.  Then document, registry and tags are those of the first
finalization; every call that would change them fails, as finalized or with what is wrong with its handler; every
further call to finalize gives that document; and tags are found as then.  The first call to finalize gives
the document exactly when the paths in it can be counted, and otherwise fails for that reason. -/
theorem finalized_for_good (s : Settings) (before after : List Call) (hfirst : Call.finalize ∉ before) :
    let d := (new s).afterCalls before
    let e := (new s).afterCalls (before ++ .finalize :: after)
    (e.document = d.document ∧ e.registry = d.registry ∧ e.tagTable = d.tagTable) ∧
      (∀ c : Call, (c.failure? e = none ↔ c.onlyReads = true) ∧ c.failure? e = c.refusal? ∧ c.after e = e) ∧
      run finalize e = (.ok d.document, e) ∧
      (∀ path method, e.tagsFor path method = d.tagsFor path method) ∧
      (run finalize d).1 =
        (if hasLength d.countedPaths then .ok d.document else .error (.noLength d.countedPaths.fullKind)) := by
  intro d e
  have hd : d.finalized = false := finalized_afterCalls rfl hfirst
  -- the flag apart, the state is that of the first finalization
  have he : e = { d with finalized := true } := by
    show (new s).afterCalls (before ++ .finalize :: after) = _
    rw [afterCalls_append, afterCalls_cons, Call.after_finalize, afterCalls_of_finalized rfl]
  have hfinal : e.finalized = true := by rw [he]
  have hfail : ∀ c : Call, c.failure? e = c.refusal? := fun c => (run_edit_of_finalized hfinal c).2
  refine ⟨by rw [he]; exact ⟨rfl, rfl, rfl⟩, fun c => ⟨?_, hfail c, after_of_finalized hfinal c⟩, ?_, ?_, ?_⟩
  · rw [hfail, Call.refusal?_eq_none_iff]
  · rw [run_finalize_of_finalized hfinal, he]
  · intro path method
    rw [he]
    rfl
  · rw [run_finalize_of_open hd]

/-- Calls of all kinds around a finalization: a tag call before it, and an override and a handler after it. -/
theorem finalized_for_good_tags :
    Call.finalize ∉ [Call.tag "/a" (.list [.str "GET"]) (.list [.str "x"])] ∧
      ((new default).afterCalls
        ([.tag "/a" (.list [.str "GET"]) (.list [.str "x"])] ++ .finalize ::
          [.tag "/a" (.list [.str "GET"]) (.list [.str "y"]), .mergeInto (.object [("info", .null)])])).tagsFor
        "/a" "get" = ["x"] := by
  have hfirst : Call.finalize ∉ [Call.tag "/a" (.list [.str "GET"]) (.list [.str "x"])] := by simp
  refine ⟨hfirst, ?_⟩
  obtain ⟨-, -, -, htags, -⟩ := finalized_for_good default
    [.tag "/a" (.list [.str "GET"]) (.list [.str "x"])]
    [.tag "/a" (.list [.str "GET"]) (.list [.str "y"]), .mergeInto (.object [("info", .null)])] hfirst
  rw [htags]
  decide +kernel

/-- **The call that finalizes can fail.**  With an override that sets the paths to nothing, the first call to
finalize gives no document, although the documentation is finalized then, and the next call gives it. -/
theorem finalize_fails_without_paths :
    (run finalize ((new default).afterCalls [.mergeInto (.object [("paths", .null)])])).1
        = .error (.noLength "NoneType") ∧
      (run finalize ((new default).afterCalls [.mergeInto (.object [("paths", .null)]), .finalize])).1
        = .ok ((new default).afterCalls [.mergeInto (.object [("paths", .null)])]).document := by
  constructor
  · rw [run_finalize_of_open (by decide +kernel), if_neg (by decide +kernel)]
    rfl
  · rw [run_finalize_of_finalized (by decide +kernel)]
    rfl

end Documentation

end RouteDoc
