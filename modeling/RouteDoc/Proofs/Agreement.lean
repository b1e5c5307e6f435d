import RouteDoc.Proofs.Readers
import RouteDoc.Proofs.Retyping

/-!
# What readers see under other names

When one name of a class is given other annotations, the readers of every type agree under the other names: what
they resolve, what they fall back on, and the fields that they make of it.  This holds for each kind of structured
type, along the ancestors of a class and along the bases of models and dictionaries.

* `others` — the pairs under other names than one;
* `Reader.Agree` — readers that agree under other names;
* `Retyping.agree_readersOf` — the readers of a type before and after.
-/

namespace RouteDoc

variable {α β : Type}

/-! ### Pairs under other names -/

/-- The pairs under other names. -/
def others (name : String) (l : List (String × α)) : List (String × α) := l.filter fun e => e.1 != name

/-- The parameters under names to be kept. -/
def kept (keep : String → Bool) (ps : List Param) : List Param := ps.filter fun p => keep p.name

theorem others_cons_of_eq {name : String} {e : String × α} (h : e.1 = name) (l : List (String × α)) :
    others name (e :: l) = others name l := List.filter_cons_of_neg (by simpa using h)

theorem others_cons_of_ne {name : String} {e : String × α} (h : e.1 ≠ name) (l : List (String × α)) :
    others name (e :: l) = e :: others name l := List.filter_cons_of_pos (by simpa using h)

theorem kept_cons_of_pos {keep : String → Bool} {p : Param} (h : keep p.name = true) (ps : List Param) :
    kept keep (p :: ps) = p :: kept keep ps := List.filter_cons_of_pos h

theorem kept_cons_of_neg {keep : String → Bool} {p : Param} (h : ¬ keep p.name = true) (ps : List Param) :
    kept keep (p :: ps) = kept keep ps := List.filter_cons_of_neg h

theorem lookup_filter (keep : String → Bool) {m : String} (hm : keep m = true) (l : List (String × α)) :
    (l.filter fun e => keep e.1).lookup m = l.lookup m := by
  induction l with
  | nil => rfl
  | cons e l ih =>
    obtain ⟨n, a⟩ := e
    rw [List.filter_cons, List.lookup_cons, ← ih]
    by_cases hn : m = n
    · subst hn
      rw [if_pos hm, List.lookup_cons]
    · have hne : (m == n) = false := beq_false_of_ne hn
      cases keep n <;> simp [hne, List.lookup_cons]

theorem lookup_of_others {name m : String} (hm : m ≠ name) {l l' : List (String × α)}
    (h : others name l = others name l') : l.lookup m = l'.lookup m := by
  have hkeep : (m != name) = true := by simpa using hm
  rw [← lookup_filter (· != name) hkeep l, ← lookup_filter (· != name) hkeep l']
  exact congrArg (List.lookup m) h

/-- Leaving names out and leaving other pairs out can change places. -/
theorem others_filter (name : String) (q : String × α → Bool) (l : List (String × α)) :
    others name (l.filter q) = (others name l).filter q := List.filter_comm _ q l

theorem others_append (name : String) (l l' : List (String × α)) :
    others name (l ++ l') = others name l ++ others name l' := List.filter_append l l'

theorem others_putNamed (name m : String) (a : α) (l : List (String × α)) :
    others name (putNamed m a l) = if m = name then others name l else putNamed m a (others name l) := by
  induction l with
  | nil => by_cases hm : m = name <;> simp [others, putNamed, hm]
  | cons e l ih =>
    obtain ⟨n, b⟩ := e
    rw [putNamed]
    by_cases hn : n = m
    · subst hn
      by_cases hm : n = name <;> simp [others, putNamed, hm]
    · rw [if_neg (by simpa using hn)]
      by_cases hname : n = name
      · have hm : ¬m = name := fun h => hn (hname.trans h.symm)
        rw [if_neg hm] at ih ⊢
        simpa [others, hname] using ih
      · by_cases hm : m = name
        · rw [if_pos hm] at ih ⊢
          simpa [others, hname] using ih
        · rw [if_neg hm] at ih ⊢
          simpa [others, hname, putNamed, hn] using ih

/-- Putting pairs one after another, seen under other names. -/
theorem others_putAllNamed (name : String) (pairs onto : List (String × α)) :
    others name (putAllNamed pairs onto) = putAllNamed (others name pairs) (others name onto) := by
  induction pairs generalizing onto with
  | nil => rfl
  | cons e pairs ih =>
    obtain ⟨n, a⟩ := e
    show others name (putAllNamed pairs (putNamed n a onto)) = _
    rw [ih, others_putNamed]
    by_cases hn : n = name
    · rw [if_pos hn, others_cons_of_eq hn]
    · rw [if_neg hn, others_cons_of_ne hn]
      rfl

theorem putAllNamed_congr {name : String} {pairs pairs' onto onto' : List (String × α)}
    (h : others name pairs = others name pairs') (honto : others name onto = others name onto') :
    others name (putAllNamed pairs onto) = others name (putAllNamed pairs' onto') := by
  rw [others_putAllNamed, others_putAllNamed, h, honto]

/-- Pairs put one list after another, seen under other names; by induction on what is put. -/
theorem others_foldl_putAllNamed {γ : Type} {name : String} {f g : γ → List (String × α)} {cs : List γ}
    (h : ∀ c ∈ cs, others name (f c) = others name (g c)) {onto onto' : List (String × α)}
    (honto : others name onto = others name onto') :
    others name (cs.foldl (fun out c => putAllNamed (f c) out) onto) =
      others name (cs.foldl (fun out c => putAllNamed (g c) out) onto') := by
  induction cs generalizing onto onto' with
  | nil => exact honto
  | cons c cs ih =>
    exact ih (fun c' hc => h c' (List.mem_cons_of_mem c hc))
      (putAllNamed_congr (h c List.mem_cons_self) honto)

/-- What is made one by one of what agrees under other names, if nothing else is looked at; by induction on either
list, from which what stands under the name may be left out. -/
theorem filter_filterMap_congr {γ : Type} (key : β → String) {name : String} {q : γ → Bool} {l l' : List β}
    {f g : β → Option γ} (hl : (l.filter fun c => key c != name) = l'.filter fun c => key c != name)
    (hf : ∀ c ∈ l, key c = name → ∀ a, f c = some a → q a = false)
    (hg : ∀ c ∈ l', key c = name → ∀ a, g c = some a → q a = false)
    (hfg : ∀ c, key c ≠ name → f c = g c) : (l.filterMap f).filter q = (l'.filterMap g).filter q := by
  have hdrop : ∀ (l : List β) (f : β → Option γ), (∀ c ∈ l, key c = name → ∀ a, f c = some a → q a = false) →
      (l.filterMap f).filter q = ((l.filter fun c => key c != name).filterMap f).filter q := by
    intro l f hf
    induction l with
    | nil => rfl
    | cons c l ih =>
      have ih := ih fun c' hc => hf c' (List.mem_cons_of_mem c hc)
      by_cases hname : key c = name
      · rw [List.filter_cons_of_neg (by simpa using hname), ← ih]
        cases hfc : f c with
        | none => rw [List.filterMap_cons_none hfc]
        | some a =>
          have hq := hf c List.mem_cons_self hname a hfc
          rw [List.filterMap_cons_some hfc, List.filter_cons_of_neg (by simp [hq])]
      · rw [List.filter_cons_of_pos (by simpa using hname)]
        cases hfc : f c with
        | none => rw [List.filterMap_cons_none hfc, List.filterMap_cons_none hfc, ih]
        | some a =>
          rw [List.filterMap_cons_some hfc, List.filterMap_cons_some hfc, List.filter_cons, List.filter_cons, ih]
  rw [hdrop l f hf, hdrop l' g hg, hl]
  refine congrArg (List.filter q) (List.filterMap_congr fun c hc => hfg c ?_)
  simpa using (List.mem_filter.1 hc).2

theorem filter_map_congr {γ : Type} (key : β → String) {name : String} {q : γ → Bool} {l l' : List β}
    {f g : β → γ} (hl : (l.filter fun c => key c != name) = l'.filter fun c => key c != name)
    (hf : ∀ c ∈ l, key c = name → q (f c) = false) (hg : ∀ c ∈ l', key c = name → q (g c) = false)
    (hfg : ∀ c, key c ≠ name → f c = g c) : (l.map f).filter q = (l'.map g).filter q := by
  rw [← List.filterMap_eq_map, ← List.filterMap_eq_map]
  refine filter_filterMap_congr key hl (fun c hc hname a ha => ?_) (fun c hc hname a ha => ?_) fun c hc => ?_
  · exact Option.some.inj ha ▸ hf c hc hname
  · exact Option.some.inj ha ▸ hg c hc hname
  · exact congrArg some (hfg c hc)

/-- Parameters made one by one of what agrees under other names, when the name itself is not kept. -/
theorem kept_map_congr (key : β → String) {name : String} {keep : String → Bool} (hkeep : keep name = false)
    {l l' : List β} {f g : β → Param} (hl : (l.filter fun c => key c != name) = l'.filter fun c => key c != name)
    (hf : ∀ c, (f c).name = key c) (hg : ∀ c, (g c).name = key c) (hfg : ∀ c, key c ≠ name → f c = g c) :
    kept keep (l.map f) = kept keep (l'.map g) :=
  filter_map_congr key hl (fun c _ hc => by rw [hf, hc, hkeep]) (fun c _ hc => by rw [hg, hc, hkeep]) hfg

/-- Pairs made one by one of what agrees under other names. -/
theorem others_map (key : β → String) {name : String} {l l' : List β} {f g : β → String × α}
    (hl : (l.filter fun c => key c != name) = l'.filter fun c => key c != name) (hf : ∀ c, (f c).1 = key c)
    (hg : ∀ c, (g c).1 = key c) (hfg : ∀ c, key c ≠ name → f c = g c) :
    others name (l.map f) = others name (l'.map g) :=
  filter_map_congr key hl (fun c _ hc => by simp [hf, hc]) (fun c _ hc => by simp [hg, hc]) hfg

/-- What is changed under one name alone is the same under the others. -/
theorem filter_map_of_ne {key : β → String} {name : String} {f : β → β} (hkey : ∀ c, key (f c) = key c)
    (hf : ∀ c, key c ≠ name → f c = c) (l : List β) :
    ((l.map f).filter fun c => key c != name) = l.filter fun c => key c != name := by
  rw [List.filter_map]
  have hsame : (fun c => key c != name) ∘ f = fun c => key c != name := funext fun c => by simp [hkey]
  rw [hsame]
  conv_rhs => rw [← List.map_id (l.filter fun c => key c != name)]
  exact List.map_congr_left fun c hc => hf c (by simpa using (List.mem_filter.1 hc).2)

/-! ### Readers that agree -/

/-- Two readers agree under other names. -/
structure Reader.Agree (name : String) (keep : String → Bool) (x x' : Reader) : Prop where
  annotations : others name x.annotations = others name x'.annotations
  fallback : others name x.fallback = others name x'.fallback
  fields : ∀ types types', others name types = others name types' →
    kept keep (x.fields types) = kept keep (x'.fields types')

def Kind.isDataclass : Kind → Bool
  | .dataclass => true
  | _ => false

theorem Kind.isDataclass_iff {k : Kind} : k.isDataclass = true ↔ k = .dataclass := by
  cases k <;> simp [isDataclass]

/-- The names under which a type shows the fields of a name: those that models give them, or the name itself. -/
def Declarations.shownAs (env : Declarations) (name : String) : TypeExpr → List String
  | .declared id =>
    if env.isModel id then ((env.modelFields id).filter fun e => e.1 == name).map fun e => publicName e.2
    else [name]
  | _ => [name]

namespace Retyping

variable {r : Retyping} {env : Declarations} {keep : String → Bool}

theorem onField_of_ne {id : String} {f : FieldDecl} (h : f.name ≠ r.name) : r.onField id f = f := by
  have hc : ¬r.Concerns id f.name := fun hc => h hc.2
  rw [onField, if_neg hc]

theorem onParameter_of_ne {id : String} {p : Parameter} (h : p.name ≠ r.name) : r.onParameter id p = p := by
  have hc : ¬r.Concerns id p.name := fun hc => h hc.2
  rw [onParameter, if_neg hc]

/-- The fields of a class are the same under other names. -/
theorem filter_map_onField (id : String) (fs : List FieldDecl) :
    ((fs.map (r.onField id)).filter fun f => f.name != r.name) = fs.filter fun f => f.name != r.name :=
  filter_map_of_ne (f := r.onField id) (fun _ => rfl) (fun _ => onField_of_ne) fs

theorem filter_map_onParameter (id : String) (ps : List Parameter) :
    ((ps.map (r.onParameter id)).filter fun p => p.name != r.name) = ps.filter fun p => p.name != r.name :=
  filter_map_of_ne (f := r.onParameter id) (fun _ => rfl) (fun _ => onParameter_of_ne) ps

/-! ### Annotations -/

/-- The annotations that a class brings are the same under other names: as those of an extractor, or field by
field. -/
theorem others_ownAnnotations (d : Declaration) :
    others r.name ((r.onTypes env).ownAnnotations (r.onDeclaration d)) =
      others r.name (env.ownAnnotations d) := by
  have hown : others r.name ((r.onDeclaration d).fields.map fun f => (f.name, f.type)) =
      others r.name (d.fields.map fun f => (f.name, f.type)) :=
    others_map FieldDecl.name (filter_map_onField d.id d.fields) (fun _ => rfl) (fun _ => rfl) fun _ _ => rfl
  rw [Declarations.ownAnnotations, Declarations.ownAnnotations]
  rcases kind_onDeclaration r d with h | ⟨ps, qs, h, h'⟩
  · rw [h]
    cases d.kind with
    | extractor base => simp only [extractor?_onTypes]
    | _ => exact hown
  · rw [h, h']
    exact hown

theorem others_annotated (name : String) (meaning : Option Globals) (types : List (String × TypeExpr)) :
    others name (annotated meaning types) = annotated meaning (others name types) := List.filter_map

theorem others_moduleAnnotations (d : Declaration) :
    others r.name ((r.onTypes env).moduleAnnotations (r.onDeclaration d)) =
      others r.name (env.moduleAnnotations d) := by
  rw [Declarations.moduleAnnotations, Declarations.moduleAnnotations, others_annotated, others_annotated,
    others_ownAnnotations]
  rfl

theorem others_annotationTrail (id : String) :
    others r.name ((r.onTypes env).annotationTrail id) = others r.name (env.annotationTrail id) := by
  rw [Declarations.annotationTrail, Declarations.annotationTrail, lineage_onTypes, ← List.map_reverse,
    List.flatMap_map, others, others, List.filter_flatMap, List.filter_flatMap]
  exact congrArg (fun f => List.flatMap f _) (funext others_moduleAnnotations)

theorem others_gatheredAnnotations (id : String) :
    others r.name ((r.onTypes env).gatheredAnnotations id) = others r.name (env.gatheredAnnotations id) := by
  rw [Declarations.gatheredAnnotations, Declarations.gatheredAnnotations, lineage_onTypes, ← List.map_reverse,
    List.foldl_map]
  refine others_foldl_putAllNamed (fun d _ => ?_) rfl
  exact others_map Prod.fst (others_moduleAnnotations d) (fun _ => rfl) (fun _ => rfl)
    fun e _ => congrArg (Prod.mk e.1) (held_onTypes e.2)

theorem others_signatureAnnotations (id : String) (ps : List Parameter) :
    others r.name (Declarations.signatureAnnotations (ps.map (r.onParameter id)) none) =
      others r.name (Declarations.signatureAnnotations ps none) := by
  have hkey : ∀ (p : Parameter), p.name = r.name → ∀ e, p.type.map (fun t => (p.name, t)) = some e →
      (e.1 != r.name) = false := by
    intro p hp e he
    obtain ⟨t, -, rfl⟩ := Option.map_eq_some_iff.1 he
    simpa using hp
  rw [Declarations.signatureAnnotations, Declarations.signatureAnnotations, others_append, others_append]
  refine congrArg (· ++ _) ?_
  exact filter_filterMap_congr Parameter.name (filter_map_onParameter id ps) (fun p _ => hkey p)
    (fun p _ => hkey p) fun _ _ => rfl

/-! ### Readers of each kind -/

theorem sharedAttribute?_map (ds : List Declaration) (name : String) :
    Declarations.sharedAttribute? (ds.map r.onDeclaration) name = Declarations.sharedAttribute? ds name := by
  rw [Declarations.sharedAttribute?, Declarations.sharedAttribute?, List.findSome?_map]
  exact congrArg (fun f => List.findSome? f ds) (funext fun d => attribute?_onDeclaration d name)

theorem dataclassDefault_map (ancestors : List Declaration) (f : FieldDecl) :
    Declarations.dataclassDefault (ancestors.map r.onDeclaration) f =
      Declarations.dataclassDefault ancestors f := by
  rw [Declarations.dataclassDefault, Declarations.dataclassDefault]
  simp only [sharedAttribute?_map]

/-- The entries of a class that is a dataclass itself. -/
theorem dataclassEntries_of_eq {fuel : Nat} {id : String} {d : Declaration} {ancestors : List Declaration}
    (hl : env.lineage id = d :: ancestors) (hd : d.kind = .dataclass) :
    env.dataclassEntries (fuel + 1) id =
      putAllNamed
        (d.fields.map fun f => (f.name, ⟨f.type, d.meaning⟩, Declarations.dataclassDefault ancestors f))
        (ancestors.reverse.foldl (fun out a => putAllNamed (env.dataclassEntries fuel a.id) out) []) := by
  rw [Declarations.dataclassEntries, hl]
  simp only [hd]

/-- The entries of a class that only derives from dataclasses are those of the nearest. -/
theorem dataclassEntries_of_ne {fuel : Nat} {id : String} {d : Declaration} {ancestors : List Declaration}
    (hl : env.lineage id = d :: ancestors) (hd : d.kind ≠ .dataclass) :
    env.dataclassEntries (fuel + 1) id =
      ((ancestors.find? fun a => a.kind.isDataclass).map fun a => env.dataclassEntries fuel a.id).getD [] := by
  rw [Declarations.dataclassEntries, hl]
  dsimp only
  split
  · next hk => exact absurd hk hd
  · split
    · next nearest hfind =>
      have hfind : (ancestors.find? fun a => a.kind.isDataclass) = some nearest := hfind
      rw [hfind]
      rfl
    · next hfind =>
      have hfind : (ancestors.find? fun a => a.kind.isDataclass) = none := hfind
      rw [hfind]
      rfl

theorem isDataclass_onDeclaration (d : Declaration) : (r.onDeclaration d).kind.isDataclass = d.kind.isDataclass := by
  rcases kind_onDeclaration r d with h | ⟨ps, qs, h, h'⟩
  · rw [h]
  · rw [h, h']
    rfl

/-- The entries of a dataclass under other names; by induction on the depth. -/
theorem others_dataclassEntries (fuel : Nat) (id : String) :
    others r.name ((r.onTypes env).dataclassEntries fuel id) = others r.name (env.dataclassEntries fuel id) := by
  induction fuel generalizing id with
  | zero => rfl
  | succ fuel ih =>
    have hl' : (r.onTypes env).lineage id = (env.lineage id).map r.onDeclaration := lineage_onTypes id
    cases hl : env.lineage id with
    | nil =>
      rw [hl] at hl'
      rw [Declarations.dataclassEntries, Declarations.dataclassEntries, hl, hl']
      rfl
    | cons d ancestors =>
      rw [hl, List.map_cons] at hl'
      by_cases hd : d.kind = .dataclass
      · have hd' : (r.onDeclaration d).kind = .dataclass := by
          rw [← Kind.isDataclass_iff, isDataclass_onDeclaration, hd]
          rfl
        rw [dataclassEntries_of_eq hl hd, dataclassEntries_of_eq hl' hd', ← List.map_reverse, List.foldl_map]
        refine putAllNamed_congr ?_ (others_foldl_putAllNamed (fun a _ => ih a.id) rfl)
        exact others_map FieldDecl.name (filter_map_onField d.id d.fields) (fun _ => rfl) (fun _ => rfl)
          fun f _ => by
            rw [dataclassDefault_map]
            rfl
      · have hd' : (r.onDeclaration d).kind ≠ .dataclass := by
          rw [ne_eq, ← Kind.isDataclass_iff, isDataclass_onDeclaration, Kind.isDataclass_iff]
          exact hd
        rw [dataclassEntries_of_ne hl hd, dataclassEntries_of_ne hl' hd',
          find?_map_onDeclaration isDataclass_onDeclaration]
        cases ancestors.find? fun a => a.kind.isDataclass with
        | none => rfl
        | some a => exact ih a.id

/-- The keys of a dictionary under other names; by induction on the depth. -/
theorem others_dictKeys (fuel : Nat) (id : String) :
    others r.name ((r.onTypes env).dictKeys fuel id) = others r.name (env.dictKeys fuel id) := by
  induction fuel generalizing id with
  | zero => rfl
  | succ fuel ih =>
    rw [Declarations.dictKeys, Declarations.dictKeys, find?_onTypes]
    cases env.find? id with
    | none => rfl
    | some d =>
      have hinherited : others r.name (d.bases.foldl
            (fun out b => putAllNamed ((r.onTypes env).dictKeys fuel b) out) []) =
          others r.name (d.bases.foldl (fun out b => putAllNamed (env.dictKeys fuel b) out) []) :=
        others_foldl_putAllNamed (fun b _ => ih b) rfl
      refine putAllNamed_congr (others_map FieldDecl.name (filter_map_onField d.id d.fields) (fun _ => rfl)
        (fun _ => rfl) fun f _ => ?_) hinherited
      rcases kind_onDeclaration r d with h | ⟨ps, qs, h, h'⟩
      · rw [h]
        rfl
      · rw [h, h']
        rfl

/-! ### Models -/

/-- The field that a class declares under another name is the same. -/
theorem find?_map_onField (id : String) {name : String} (hname : name ≠ r.name) (fs : List FieldDecl) :
    ((fs.map (r.onField id)).find? fun f => f.name == name) = fs.find? fun f => f.name == name := by
  rw [List.find?_map]
  have hsame : (fun f : FieldDecl => f.name == name) ∘ r.onField id = fun f => f.name == name := rfl
  rw [hsame]
  cases hfind : fs.find? fun f => f.name == name with
  | none => rfl
  | some f =>
    have hf : f.name = name := by simpa using List.find?_some hfind
    rw [Option.map_some, onField_of_ne (fun h => hname (hf.symm.trans h))]

theorem heldField_onTypes (d : Declaration) (f : FieldDecl) :
    (r.onTypes env).heldField (r.onDeclaration d) f = env.heldField d f := by
  rw [Declarations.heldField, Declarations.heldField, held_onTypes]
  rfl

theorem modelAttribute?_onTypes (id : String) {name : String} (hname : name ≠ r.name) :
    (r.onTypes env).modelAttribute? id name = env.modelAttribute? id name := by
  rw [Declarations.modelAttribute?, Declarations.modelAttribute?, lineage_onTypes, List.findSome?_map]
  refine congrArg (fun f => List.findSome? f (env.lineage id)) (funext fun d => ?_)
  have hdeclares : ((r.onDeclaration d).fields.any fun f =>
      f.name == name && Declarations.isModelField ((r.onTypes env).heldField (r.onDeclaration d) f)) =
        d.fields.any fun f => f.name == name && Declarations.isModelField (env.heldField d f) := by
    show (d.fields.map (r.onField d.id)).any _ = _
    rw [List.any_map]
    refine congrArg (fun q => List.any d.fields q) (funext fun f => ?_)
    by_cases hf : f.name = name
    · rw [Function.comp, onField_of_ne (fun h => hname (hf.symm.trans h)), heldField_onTypes]
    · have hne : (f.name == name) = false := beq_false_of_ne hf
      show (f.name == name && _) = (f.name == name && _)
      rw [hne, Bool.false_and, Bool.false_and]
  show (if (r.onTypes env).isModel d.id && (r.onDeclaration d).fields.any _ then none
    else Declarations.attribute? (r.onDeclaration d) name) = _
  rw [hdeclares, isModel_onTypes, attribute?_onDeclaration]

/-- The fields of a model under other names; by induction on the depth. -/
theorem others_modelFieldsWithin (fuel : Nat) (id : String) :
    others r.name ((r.onTypes env).modelFieldsWithin fuel id) = others r.name (env.modelFieldsWithin fuel id) := by
  induction fuel generalizing id with
  | zero => rfl
  | succ fuel ih =>
    rw [Declarations.modelFieldsWithin, Declarations.modelFieldsWithin, find?_onTypes]
    cases env.find? id with
    | none => rfl
    | some d =>
      have hbases : others r.name (d.bases.reverse.foldl (fun out b => putAllNamed
            (if (r.onTypes env).isModel b then (r.onTypes env).modelFieldsWithin fuel b else []) out) []) =
          others r.name (d.bases.reverse.foldl (fun out b => putAllNamed
            (if env.isModel b then env.modelFieldsWithin fuel b else []) out) []) := by
        refine others_foldl_putAllNamed (fun b _ => ?_) rfl
        rw [isModel_onTypes]
        split
        · exact ih b
        · rfl
      have hkey : ∀ (declared : Bool) (e a : String × FieldDecl), e.1 = r.name →
          (if declared = true then some e else none) = some a → (a.1 != r.name) = false := by
        intro declared e a he ha
        obtain ⟨-, hea⟩ := Option.ite_none_right_eq_some.1 ha
        cases hea
        simpa using he
      refine filter_filterMap_congr Prod.fst (others_gatheredAnnotations id)
        (fun e _ he a ha => hkey _ (e.1, _) a he ha) (fun e _ he a ha => hkey _ (e.1, _) a he ha) ?_
      rintro ⟨name, type⟩ hname
      have hfind : ((r.onDeclaration d).fields.find? fun f => f.name == name) =
          d.fields.find? fun f => f.name == name := find?_map_onField d.id hname d.fields
      have hname : name ≠ r.name := hname
      dsimp only
      rw [modelAttribute?_onTypes id hname, hfind, show (r.onDeclaration d).bases = d.bases from rfl,
        lookup_of_others hname hbases]
      simp only [heldField_onTypes]

/-! ### Readers of every kind -/

/-- The readers of models agree. -/
theorem agree_modelReader {d : Declaration}
    (hkeep : ∀ e ∈ env.modelFields d.id ++ (r.onTypes env).modelFields d.id, e.1 = r.name →
      keep (Declarations.publicName e.2) = false) (m : Moment) :
    Reader.Agree r.name keep (env.modelReader d m) ((r.onTypes env).modelReader (r.onDeclaration d) m) := by
  have hfields : others r.name (env.modelFields d.id) = others r.name ((r.onTypes env).modelFields d.id) := by
    rw [Declarations.modelFields, Declarations.modelFields, length_onTypes, others_modelFieldsWithin]
  refine ⟨rfl, rfl, fun _ _ _ => ?_⟩
  exact filter_map_congr Prod.fst hfields (fun e he => hkeep e (List.mem_append_left _ he))
    (fun e he => hkeep e (List.mem_append_right _ he)) fun _ _ => rfl

/-- The readers of dataclasses agree. -/
theorem agree_dataclassReader (hkeep : keep r.name = false) (d : Declaration) (m : Moment) :
    Reader.Agree r.name keep (env.dataclassReader d m) ((r.onTypes env).dataclassReader (r.onDeclaration d) m) where
  annotations := (others_annotationTrail d.id).symm
  fallback := (others_ownAnnotations d).symm
  fields types types' htypes := by
    have hentries : others r.name (env.dataclassFields d.id) =
        others r.name ((r.onTypes env).dataclassFields d.id) := by
      simp only [Declarations.dataclassFields, length_onTypes, held_onTypes, others_filter, others_dataclassEntries]
    refine kept_map_congr Prod.fst hkeep hentries (fun _ => rfl) (fun _ => rfl) ?_
    rintro ⟨name, a, default⟩ hname
    dsimp only
    rw [infer_onTypes, lookup_of_others hname (putAllNamed_congr htypes rfl)]

theorem agree_dictReader (hkeep : keep r.name = false) (d : Declaration) :
    Reader.Agree r.name keep (env.dictReader d) ((r.onTypes env).dictReader (r.onDeclaration d)) := by
  have hkeys : others r.name (env.dictKeys (env.length + 1) d.id) =
      others r.name ((r.onTypes env).dictKeys ((r.onTypes env).length + 1) d.id) := by
    rw [length_onTypes, others_dictKeys]
  have hannotations : others r.name (env.dictReader d).annotations =
      others r.name ((r.onTypes env).dictReader (r.onDeclaration d)).annotations :=
    others_map Prod.fst hkeys (fun _ => rfl) (fun _ => rfl) fun _ _ => rfl
  have hraw : others r.name (env.dictReader d).fallback =
      others r.name ((r.onTypes env).dictReader (r.onDeclaration d)).fallback :=
    others_map Prod.fst hannotations (fun _ => rfl) (fun _ => rfl) fun _ _ => rfl
  refine ⟨hannotations, hraw, fun types types' htypes => ?_⟩
  refine kept_map_congr Prod.fst hkeep hkeys (fun _ => rfl) (fun _ => rfl) ?_
  rintro ⟨name, a, required⟩ hname
  dsimp only
  rw [lookup_of_others hname htypes]

theorem agree_tupleReader (hkeep : keep r.name = false) (d tuple : Declaration) :
    Reader.Agree r.name keep (env.tupleReader d tuple)
      ((r.onTypes env).tupleReader (r.onDeclaration d) (r.onDeclaration tuple)) where
  annotations := (others_annotationTrail d.id).symm
  fallback := (others_ownAnnotations d).symm
  fields types types' htypes := by
    refine kept_map_congr FieldDecl.name hkeep (filter_map_onField tuple.id tuple.fields).symm (fun _ => rfl)
      (fun _ => rfl) ?_
    intro f hf
    rw [infer_onTypes, lookup_of_others hf (putAllNamed_congr htypes rfl)]

theorem agree_attributeReader (hkeep : keep r.name = false) (d : Declaration) :
    Reader.Agree r.name keep (env.attributeReader d) ((r.onTypes env).attributeReader (r.onDeclaration d)) where
  annotations := (others_annotationTrail d.id).symm
  fallback := (others_ownAnnotations d).symm
  fields types types' htypes := by
    have hshown : others r.name ((putAllNamed types []).filter fun e => Declarations.isShown e.1 e.2) =
        others r.name ((putAllNamed types' []).filter fun e => Declarations.isShown e.1 e.2) := by
      rw [others_filter, others_filter, putAllNamed_congr htypes rfl]
    refine kept_map_congr Prod.fst hkeep hshown (fun _ => rfl) (fun _ => rfl) ?_
    rintro ⟨name, type⟩ -
    dsimp only
    rw [infer_onTypes, attribute?_onDeclaration]

theorem agree_constructorReader (hkeep : keep r.name = false) (id : String) (meaning : Option Globals)
    (ps : List Parameter) : Reader.Agree r.name keep (env.constructorReader meaning ps)
      ((r.onTypes env).constructorReader meaning (ps.map (r.onParameter id))) where
  annotations := by
    show others r.name (annotated _ _) = others r.name (annotated _ _)
    rw [others_annotated, others_annotated, others_signatureAnnotations]
  fallback := (others_signatureAnnotations id ps).symm
  fields types types' htypes := by
    have hparameters : ((ps.filter fun p => p.passing != .gathered).filter fun p => p.name != r.name) =
        ((ps.map (r.onParameter id)).filter fun p => p.passing != .gathered).filter fun p => p.name != r.name := by
      rw [List.filter_comm, List.filter_comm (p := fun p : Parameter => p.name != r.name),
        filter_map_onParameter]
    refine kept_map_congr Parameter.name hkeep hparameters (fun _ => rfl) (fun _ => rfl) ?_
    intro p hp
    rw [infer_onTypes, lookup_of_others hp htypes]

/-- A reader of fixed fields agrees with one of fields that are the same where they are kept. -/
theorem agree_fixed {name : String} {ps qs : List Param} (h : kept keep ps = kept keep qs) :
    Reader.Agree name keep (.fixed ps) (.fixed qs) := ⟨rfl, rfl, fun _ _ _ => h⟩

theorem agree_classReaders (hkeep : keep r.name = false) (d : Declaration) :
    List.Forall₂ (Reader.Agree r.name keep) (env.classReaders d)
      ((r.onTypes env).classReaders (r.onDeclaration d)) := by
  refine .cons (agree_attributeReader hkeep d) ?_
  rw [show (r.onDeclaration d).kind = r.onKind d.id d.kind from rfl]
  cases d.kind with
  | plain constructor =>
    cases constructor with
    | none => exact .nil
    | some parameters => exact .cons (agree_constructorReader hkeep d.id d.meaning parameters) .nil
  | _ => exact .nil

theorem agree_declaredReaders {d : Declaration} {m : Moment}
    (hkeep : ∀ n ∈ env.shownAs r.name (.declared d.id) ++ (r.onTypes env).shownAs r.name (.declared d.id),
      keep n = false) :
    List.Forall₂ (Reader.Agree r.name keep) (env.declaredReaders d m)
      ((r.onTypes env).declaredReaders (r.onDeclaration d) m) := by
  have hid : (r.onDeclaration d).id = d.id := rfl
  rw [Declarations.declaredReaders, Declarations.declaredReaders, hid, isModel_onTypes, isDataclass_onTypes,
    isTypedDict_onTypes, namedTuple?_onTypes]
  cases hm : env.isModel d.id with
  | true =>
    have hpublic : ∀ e ∈ env.modelFields d.id ++ (r.onTypes env).modelFields d.id, e.1 = r.name →
        keep (Declarations.publicName e.2) = false := by
      intro e he hname
      have hshown : ∀ env' : Declarations, env'.isModel d.id = true → e ∈ env'.modelFields d.id →
          Declarations.publicName e.2 ∈ env'.shownAs r.name (.declared d.id) := by
        intro env' hm' hin
        rw [Declarations.shownAs, if_pos hm']
        exact List.mem_map_of_mem (List.mem_filter.2 ⟨hin, by simpa using hname⟩)
      refine hkeep _ (List.mem_append.2 ((List.mem_append.1 he).imp (hshown env hm) (hshown (r.onTypes env) ?_)))
      rw [isModel_onTypes, hm]
    exact .cons (agree_modelReader hpublic m) .nil
  | false =>
    have hname : keep r.name = false := hkeep r.name (by simp [Declarations.shownAs, hm])
    simp only [Bool.false_eq_true, if_false]
    split
    · exact .cons (agree_dataclassReader hname d m) .nil
    split
    · exact .cons (agree_dictReader hname d) .nil
    cases env.namedTuple? d.id with
    | some tuple => exact .cons (agree_tupleReader hname d tuple) .nil
    | none =>
      have hclass : List.Forall₂ (Reader.Agree r.name keep) (env.classReaders d)
          ((r.onTypes env).classReaders (r.onDeclaration d)) := agree_classReaders hname d
      rcases kind_onDeclaration r d with h | ⟨ps, qs, h, h'⟩
      · simp only [Option.map_none, h]
        cases d.kind with
        | enumeration base members => exact .nil
        | _ => exact hclass
      · simp only [Option.map_none, h, h']
        exact hclass

/-- **The readers of every type agree** under the names that do not show the one with other annotations. -/
theorem agree_readersOf {t : TypeExpr} (m : Moment)
    (hkeep : ∀ n ∈ env.shownAs r.name t ++ (r.onTypes env).shownAs r.name t, keep n = false) :
    List.Forall₂ (Reader.Agree r.name keep) (env.readersOf m t) ((r.onTypes env).readersOf m t) := by
  cases t with
  | declared id =>
    rw [Declarations.readersOf, Declarations.readersOf, find?_onTypes]
    cases hfind : env.find? id with
    | none => exact .nil
    | some d =>
      have hid : d.id = id := by simpa using List.find?_some hfind
      subst hid
      exact agree_declaredReaders hkeep
  | extractor e arg =>
    cases arg with
    | some arg => exact .nil
    | none =>
      have hparams : (r.onTypes env).bareExtractorParams e = env.bareExtractorParams e := by
        unfold Declarations.bareExtractorParams
        simp only [infer_onTypes]
      rw [Declarations.readersOf, Declarations.readersOf, hparams]
      exact .cons (agree_fixed rfl) .nil
  | _ => exact .nil

end Retyping

end RouteDoc
