import RouteDoc.Proofs.Commands
import RouteDoc.Proofs.Files
import RouteDoc.Proofs.Json.Printable
import RouteDoc.Proofs.Yaml.Keys

/-!
# Writing what overrides leave

Files are read as YAML, which has dates, octets, sets and keys of many kinds, and documents are written as JSON, which
has none of them.  An override is laid over a document without being looked at, and each of its entries stands in
what comes out.  So every file that can be read can be laid over a document, and the result can be written exactly
when the override can; where several overrides are laid over each other, it is enough that each of them can.

* `Entries.mem_merge` — every entry of an override stands under its key;
* `Value.Unrepeated.isPrintable_of_over` — so what cannot be written still is there;
* `Document.overrides_exported` — documents and the two commands.
-/

namespace RouteDoc

/-! ### Entries of an override -/

namespace Entries

variable {es os base : Entries} {e o : Key × Value} {key : Key} {value : Value}

theorem mem_set_of_mem (he : e ∈ es) (hkey : e.1.same key = false) : e ∈ es.set key value := by
  induction es with
  | nil => cases he
  | cons f es ih =>
    obtain ⟨k, v⟩ := f
    rw [set]
    rcases List.mem_cons.1 he with rfl | he
    · rw [if_neg (by simp [hkey])]
      exact List.mem_cons_self
    · split
      · exact List.mem_cons_of_mem _ he
      · exact List.mem_cons_of_mem _ (ih he)

theorem mem_set_self (h : ∀ e ∈ es, e.1.same key = true → e.1 = key) : (key, value) ∈ es.set key value := by
  induction es with
  | nil => exact List.mem_cons_self
  | cons e es ih =>
    obtain ⟨k, v⟩ := e
    rw [set]
    split
    · next hk =>
      obtain rfl : k = key := h _ List.mem_cons_self hk
      exact List.mem_cons_self
    · exact List.mem_cons_of_mem _ (ih fun e he => h e (List.mem_cons_of_mem _ he))

/-- An entry stays when the override says nothing about its key. -/
theorem mem_merge_of_mem (he : e ∈ es) (hos : ∀ o ∈ os, e.1.same o.1 = false) : e ∈ es.merge os := by
  induction os generalizing es with
  | nil => rwa [merge]
  | cons o os ih =>
    obtain ⟨k, v⟩ := o
    rw [merge]
    exact ih (mem_set_of_mem he (hos _ List.mem_cons_self)) fun o ho => hos o (List.mem_cons_of_mem _ ho)

/-- **Every entry of an override stands under its key**, laid over what stood there; keys that were there have to be
spelled as the override spells them. -/
theorem mem_merge (hos : os.Unrepeated) (hbase : ∀ e ∈ base, ∀ o ∈ os, e.1.same o.1 = true → e.1 = o.1)
    (ho : o ∈ os) : (o.1, Value.over (base.get? o.1) o.2) ∈ base.merge os := by
  induction os generalizing base with
  | nil => cases ho
  | cons first os ih =>
    obtain ⟨k, v⟩ := first
    obtain ⟨hhead, htail⟩ := List.pairwise_cons.1 hos
    rw [merge]
    rcases List.mem_cons.1 ho with rfl | ho
    · exact mem_merge_of_mem (mem_set_self fun e he => hbase e he _ List.mem_cons_self) hhead
    · have hne : k.same o.1 = false := hhead o ho
      have hstood : (base.set k (Value.over (base.get? k) v)).get? o.1 = base.get? o.1 := by
        rw [get?_set, if_neg (by simp [hne])]
      rw [← hstood]
      refine ih htail (fun e he o' ho' hsame => ?_) ho
      rcases key_of_mem_set he with heq | ⟨w, hw⟩
      · have hother : k.same o'.1 = false := hhead o' ho'
        rw [heq, hother] at hsame
        cases hsame
      · exact hbase (e.1, w) hw o' (List.mem_cons_of_mem _ ho') hsame

end Entries

namespace Value

variable {v w : Value} {p : Scalar → Prop} {existing : Option Value}

theorem textKeyed_entriesOf (h : ∀ w, existing = some w → w.TextKeyed p) :
    (Value.map (entriesOf existing)).TextKeyed p := by
  by_cases hmap : ∃ es : Entries, existing = some (.map es)
  · obtain ⟨es, rfl⟩ := hmap
    exact h _ rfl
  · rw [entriesOf_eq_nil fun es hes => hmap ⟨es, hes⟩]
    exact textKeyed_nil

/-- **What an override leaves on a document keyed by texts can be written only when the override can**, once it names
no key twice: each of its entries is left. -/
theorem Unrepeated.isPrintable_of_over (hv : v.Unrepeated) (hexisting : ∀ w, existing = some w → w.TextKeyed p)
    (h : (Value.over existing v).isPrintable = true) : v.isPrintable = true := by
  induction hv generalizing existing with
  | leaf hleaf => rwa [over_of_not_isMap hleaf] at h
  | @map os hos _ ih =>
    have hkeyed := textKeyed_entriesOf hexisting
    have hspelled : ∀ e ∈ entriesOf existing, ∀ o ∈ os, e.1.same o.1 = true → e.1 = o.1 := by
      intro e he o _ hsame
      obtain ⟨name, hname⟩ := (hkeyed.of_mem_map he).1
      rw [hname] at hsame ⊢
      exact ((Key.str_same_iff name o.1).1 hsame).symm
    rw [over_map hos, isPrintable_map_iff] at h
    rw [isPrintable_map_iff]
    intro o ho
    obtain ⟨hkey, hvalue⟩ := h _ (Entries.mem_merge hos hspelled ho)
    exact ⟨hkey, ih o ho (fun w hw => hkeyed.get? hw) hvalue⟩

end Value

/-! ### Documents -/

namespace Value

theorem allPrintable_iff (vs : List Value) : allPrintable vs = true ↔ ∀ v ∈ vs, v.isPrintable = true := by
  induction vs with
  | nil => simp [allPrintable]
  | cons v vs ih => rw [allPrintable, Bool.and_eq_true, ih, List.forall_mem_cons]

/-- Values keyed by texts can be written when their scalars can. -/
theorem TextKeyed.isPrintable {v : Value} (h : v.TextKeyed fun s => s.isPrintable = true) : v.isPrintable = true := by
  induction h with
  | scalar hs => exact hs
  | list _ ih => exact (allPrintable_iff _).2 ih
  | map _ hkeys _ ih =>
    refine (isPrintable_map_iff _).2 fun e he => ⟨?_, ih e he⟩
    obtain ⟨name, hname⟩ := hkeys e he
    rw [hname]
    rfl

end Value

namespace Document

variable {f : Folder} {names : List String} {overrides : List Document} {base override merged : Document}

theorem exists_render_json_iff (d : Document) : (∃ text, d.render .json = .ok text) ↔ d.value.isPrintable = true :=
  Json.exists_render_iff d.value

theorem mergeInto_eq_ok {es os : Entries} (hbase : base.value = .map es) (hoverride : override.value = .map os) :
    ∃ merged, base.mergeInto override = .ok merged ∧ merged.value = .map (es.merge os) := by
  rw [mergeInto, hbase, hoverride]
  exact ⟨_, rfl, rfl⟩

/-- Every override that can be read can be laid over a document, and leaves a document that can be written when both
could be written before. -/
theorem exists_mergeAll (hload : CommandLine.Holds f names overrides) (hbase : ∃ es, base.value = .map es) :
    ∃ merged, base.mergeAll overrides = .ok merged ∧ (base.value.isPrintable = true →
      (∀ o ∈ overrides, o.value.isPrintable = true) → merged.value.isPrintable = true) := by
  induction hload generalizing base with
  | nil => exact ⟨base, rfl, fun hprintable _ => hprintable⟩
  | @cons name o names os hload _ ih =>
    obtain ⟨es, hes⟩ := hbase
    obtain ⟨⟨fs, hfs⟩, -⟩ := exists_map_of_load hload
    obtain ⟨next, hnext, hvalue⟩ := mergeInto_eq_ok hes hfs
    obtain ⟨merged, hmerged, hkept⟩ := ih ⟨_, hvalue⟩
    refine ⟨merged, by rwa [mergeAll, List.foldlM_cons, hnext], fun hprintable hos => ?_⟩
    obtain ⟨ho, hos⟩ := List.forall_mem_cons.1 hos
    rw [hes] at hprintable
    rw [hfs] at ho
    refine hkept ?_ hos
    rw [hvalue]
    exact Value.isPrintable_merge fs es hprintable ho

/-- What an override leaves on a document keyed by texts can be written only when the override can. -/
theorem isPrintable_of_mergeInto {p : Scalar → Prop} {n : FileName} (hload : load f n = .ok override)
    (hbase : base.value.TextKeyed p) (hmerged : base.mergeInto override = .ok merged)
    (h : merged.value.isPrintable = true) : override.value.isPrintable = true := by
  obtain ⟨⟨os, hos⟩, hunrepeated⟩ := exists_map_of_load hload
  cases hes : base.value with
  | map es =>
    obtain ⟨next, hnext, hvalue⟩ := mergeInto_eq_ok hes hos
    obtain rfl : next = merged := Except.ok.inj (hnext.symm.trans hmerged)
    rw [hvalue, ← Value.over_map_map, ← hes, ← hos] at h
    exact hunrepeated.isPrintable_of_over (fun w hw => by rwa [← Option.some.inj hw]) h
  | _ => rw [mergeInto, hes] at hmerged; cases hmerged

end Document

/-! ### Commands -/

namespace CommandLine

/-- A call of `merge` that lays the named files over a document, and finds a place for the JSON that it writes. -/
structure MergeRequest (f : Folder) (base : Document) (names : List String) (s : Session) (c : Call) : Prop where
  folder : s.workspace.folder = f
  operands : ∃ name, c.operands = name :: names ∧ Document.load f (FileName.ofText name) = .ok base
  whole : c.value? "route" = none
  format : c.format = .json
  place : ∀ n, c.output? = some n → ∀ text, ∃ g, f.write n text = .ok g

/-- A call of `generate` that lays the named files over the document of an open draft, and finds a place for the JSON
that it writes. -/
structure GenerateRequest (f : Folder) (base : Document) (names : List String) (s : Session) (c : Call) : Prop where
  folder : s.workspace.folder = f
  target : ∃ target others draft isHeld, c.operands = target :: others ∧
    StateT.run (findTarget target) s = (.ok (draft, isHeld), s) ∧ draft.documentation.finalized = false ∧
      draft.document = base
  overrides : c.values "merge" = names
  format : c.format = .json
  place : ∀ n, c.output? = some n → ∀ text, ∃ g, f.write n text = .ok g

variable {f : Folder} {names : List String} {overrides : List Document} {base merged : Document} {s t : Session}
  {c : Call}

/-- A call that asks for JSON, and has a place for it, writes what can be written. -/
theorem succeeds_writeDocument_json_iff (hformat : c.format = .json) (hfolder : t.workspace.folder = f)
    (hplace : ∀ n, c.output? = some n → ∀ text, ∃ g, f.write n text = .ok g) :
    Action.Succeeds (writeDocument c merged) t ↔ ∃ text, merged.render .json = .ok text := by
  rw [succeeds_writeDocument_iff, hformat, hfolder]
  exact exists_congr fun text => and_iff_left fun n hn => hplace n hn text

theorem MergeRequest.succeeds_iff (h : MergeRequest f base names s c) (hload : Holds f names overrides)
    (hmerged : base.mergeAll overrides = .ok merged) :
    Action.Succeeds (merge c) s ↔ ∃ text, merged.render .json = .ok text := by
  obtain ⟨name, hoperands, hbase⟩ := h.operands
  obtain rfl := h.folder
  rw [succeeds_merge_iff hoperands h.whole hbase hload hmerged]
  exact succeeds_writeDocument_json_iff h.format rfl h.place

theorem GenerateRequest.succeeds_iff (h : GenerateRequest f base names s c) (hload : Holds f names overrides)
    (hmerged : base.mergeAll overrides = .ok merged) :
    Action.Succeeds (generate c) s ↔
      Documentation.hasLength ((merged.value.get? "paths").getD (.map [])) = true ∧
        ∃ text, merged.render .json = .ok text := by
  obtain ⟨target, others, draft, isHeld, hoperands, htarget, hopen, rfl⟩ := h.target
  obtain rfl := h.folder
  obtain ⟨t, hfolder, hiff⟩ := succeeds_generate_iff hoperands htarget hopen (h.overrides ▸ hload) hmerged
  rw [hiff, succeeds_writeDocument_json_iff h.format hfolder h.place]

end CommandLine

/-- **Which overrides can be exported.**  Files that can be read can be laid over any document of JSON data, one after
another.  The result has a text when each of the files holds only what JSON has, and, where there is one file, not
otherwise.  Both commands write it exactly when it has one; `generate` has to be able to count its paths as well. -/
theorem Document.overrides_exported {f : Folder} {names : List String} {overrides : List Document} {base : Document}
    (hload : CommandLine.Holds f names overrides) (hbase : base.value.isMap = true)
    (hjson : base.value.TextKeyed fun s => s.isPrintable = true) :
    ∃ merged, base.mergeAll overrides = .ok merged ∧
      ((∀ o ∈ overrides, o.value.isPrintable = true) → ∃ text, merged.render .json = .ok text) ∧
      (∀ o, overrides = [o] → ((∃ text, merged.render .json = .ok text) ↔ o.value.isPrintable = true)) ∧
      (∀ s c, CommandLine.MergeRequest f base names s c →
        (CommandLine.Action.Succeeds (CommandLine.merge c) s ↔ ∃ text, merged.render .json = .ok text)) ∧
      (∀ s c, CommandLine.GenerateRequest f base names s c →
        (CommandLine.Action.Succeeds (CommandLine.generate c) s ↔
          Documentation.hasLength ((merged.value.get? "paths").getD (.map [])) = true ∧
            ∃ text, merged.render .json = .ok text)) := by
  have hmap : ∃ es, base.value = .map es := by
    cases hv : base.value with
    | map es => exact ⟨es, rfl⟩
    | _ => rw [hv] at hbase; cases hbase
  obtain ⟨merged, hmerged, hkept⟩ := exists_mergeAll hload hmap
  have htext : (∀ o ∈ overrides, o.value.isPrintable = true) → ∃ text, merged.render .json = .ok text :=
    fun hos => (exists_render_json_iff merged).2 (hkept hjson.isPrintable hos)
  refine ⟨merged, hmerged, htext, ?_, fun s c h => h.succeeds_iff hload hmerged,
    fun s c h => h.succeeds_iff hload hmerged⟩
  rintro override rfl
  refine ⟨fun h => ?_, fun h => htext (by simpa using h)⟩
  obtain ⟨name, -, hname, -⟩ := List.forall₂_cons_right_iff.1 hload
  have hstep : base.mergeInto override = .ok merged := by
    rw [mergeAll, List.foldlM_cons] at hmerged
    cases hnext : base.mergeInto override with
    | error f => rw [hnext] at hmerged; cases hmerged
    | ok next => rw [hnext] at hmerged; exact hmerged
  exact isPrintable_of_mergeInto hname hjson hstep ((exists_render_json_iff merged).1 h)

/-! ### An override with a version -/

namespace Document

/-- An override with a version. -/
def versionText (version : String) : String := "info:\n  version: " ++ version ++ "\n"

/-- A folder with one file. -/
def overrideFolder (text : String) : Folder :=
  [(Folder.partsOf (FileName.ofText "override.yaml"), text.toUTF8.data.toList)]

/-- A documentation without routes. -/
def petsDraft : Draft :=
  let document := Value.object
    [("openapi", .str "3.0.0"), ("info", .object [("title", .str "Pets")]), ("paths", .map [])]
  ⟨⟨document, [], [], false, []⟩, []⟩

/-- A session in a folder with one file and one module. -/
def petsSession (text : String) : CommandLine.Session :=
  ⟨⟨overrideFolder text, [("pets", [("docs", .draft petsDraft)])], []⟩, "", []⟩

/-- The call with one override. -/
def petsCall : CommandLine.Call :=
  ⟨[(⟨none, "merge", true, .existing⟩, "override.yaml")], ["pets:docs"], false⟩

theorem load_overrideFolder (text : String) :
    load (overrideFolder text) (FileName.ofText "override.yaml") =
      ofText (FileName.ofText "override.yaml") text.toList := by
  have hread : (overrideFolder text).read (FileName.ofText "override.yaml") = .ok text.toUTF8.data.toList := by
    rw [Folder.read, Folder.read?, overrideFolder, List.lookup_cons_self]
  show (Folder.read _ _ >>= fun octets => ofOctets _ octets) = _
  rw [hread]
  show ofOctets _ _ = _
  rw [ofOctets, Utf8.decode_toUTF8]

theorem petsDraft_json : petsDraft.document.value.TextKeyed fun s => s.isPrintable = true := by
  have htitle : (Value.object [("title", .str "Pets")]).TextKeyed fun s => s.isPrintable = true :=
    .single (.scalar rfl)
  refine .object (by decide) fun e he => ?_
  rcases List.mem_cons.1 he with rfl | he
  · exact .scalar rfl
  · rcases List.mem_cons.1 he with rfl | he
    · exact htitle
    · rw [List.mem_singleton.1 he]
      exact Value.textKeyed_nil

theorem petsDraft_requested (text : String) :
    CommandLine.GenerateRequest (overrideFolder text) petsDraft.document ["override.yaml"] (petsSession text)
      petsCall where
  folder := rfl
  target := by
    have hsplit : CommandLine.splitTarget "pets:docs" = ("pets", "docs") := by decide +kernel
    have hstart : "pets".startsWith "." = false := by decide +kernel
    have hmodule : (petsSession text).workspace.findModule "pets" = .ok [("docs", .draft petsDraft)] := by
      rw [Workspace.findModule, hstart]
      rfl
    have hload : StateT.run (CommandLine.loadModule "pets") (petsSession text) =
        (.ok [("docs", .draft petsDraft)], petsSession text) := by
      have hget : StateT.run (get : CommandLine.Action CommandLine.Session) (petsSession text) =
          (.ok (petsSession text), petsSession text) := rfl
      simp only [CommandLine.loadModule, run_step_bind, hget, hmodule]
      rfl
    refine ⟨"pets:docs", [], petsDraft, true, rfl, ?_, rfl, rfl⟩
    have hnames : ("pets".isEmpty || "docs".isEmpty) = false := by decide +kernel
    simp only [CommandLine.findTarget, hsplit, hnames, Bool.false_eq_true, if_false, run_step_bind, hload]
    rfl
  overrides := rfl
  format := rfl
  place := nofun

theorem holds_overrideFolder {text : String} {override : Document}
    (h : ofText (FileName.ofText "override.yaml") text.toList = .ok override) :
    CommandLine.Holds (overrideFolder text) ["override.yaml"] [override] :=
  .cons ((load_overrideFolder text).trans h) .nil

/-- An override with a version that is no date. -/
theorem overrides_exported_version :
    ∃ override, CommandLine.Holds (overrideFolder (versionText "1.0.0")) ["override.yaml"] [override] ∧
      petsDraft.document.value.isMap = true ∧
      (petsDraft.document.value.TextKeyed fun s => s.isPrintable = true) ∧
      CommandLine.Action.Succeeds (CommandLine.generate petsCall) (petsSession (versionText "1.0.0")) := by
  obtain ⟨override, hof, hfacts⟩ : ∃ override : Document,
      ofText (FileName.ofText "override.yaml") (versionText "1.0.0").toList = .ok override ∧
        (override.value.isPrintable, (petsDraft.document.mergeAll [override]).toOption.map fun d =>
          Documentation.hasLength ((d.value.get? "paths").getD (.map []))) = (true, some true) :=
    exists_of_toOption (by decide +kernel)
  obtain ⟨hprintable, hcounted⟩ := Prod.mk.inj hfacts
  have hload := holds_overrideFolder hof
  refine ⟨override, hload, rfl, petsDraft_json, ?_⟩
  obtain ⟨merged, hmerged, htext, -, -, hgenerate⟩ := overrides_exported hload rfl petsDraft_json
  rw [hmerged] at hcounted
  exact (hgenerate _ _ (petsDraft_requested _)).2 ⟨Option.some.inj hcounted, htext (by simpa using hprintable)⟩

/-- **An override with a date is read and cannot be written**: the text after the colon looks like one, so it is
taken for one. -/
theorem dated_override_unwritable :
    ∃ override merged, CommandLine.Holds (overrideFolder (versionText "2024-01-01")) ["override.yaml"] [override] ∧
      (petsDraft.document.value.TextKeyed fun s => s.isPrintable = true) ∧
      petsDraft.document.mergeInto override = .ok merged ∧ merged.render .json = .error (.unwritable "date") := by
  obtain ⟨override, hof, hfails⟩ : ∃ override : Document,
      ofText (FileName.ofText "override.yaml") (versionText "2024-01-01").toList = .ok override ∧
        ((petsDraft.document.mergeInto override).toOption.map fun d =>
          match d.render .json with
          | .ok _ => none
          | .error f => some f) = some (some (.unwritable "date")) :=
    exists_of_toOption (by decide +kernel)
  obtain ⟨merged, hmerged, hrender⟩ := exists_of_toOption hfails
  refine ⟨override, merged, holds_overrideFolder hof, petsDraft_json, hmerged, ?_⟩
  cases htext : merged.render .json with
  | ok text => rw [htext] at hrender; cases hrender
  | error f => rw [htext] at hrender; rw [Option.some.inj hrender]

end Document

end RouteDoc
