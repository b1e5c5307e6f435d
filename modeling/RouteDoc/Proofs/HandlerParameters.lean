import Mathlib.Data.List.Perm.Basic
import RouteDoc.Proofs.Factories
import RouteDoc.Proofs.PathParameters

/-!
# Parameters of handlers

The arguments of a handler come from four parts of a request.  An extractor of bodies decides before an extractor of
request parameters, which names its place itself; a parameter without either, or with an extractor that names none,
is part of the path when its name stands behind an opening brace there, and else part of the query.  Every
parameter of the signature lands in one of four lists, in the order of the signature, unless an extractor names a
place that is no part of a request.

* `PathTemplate.Opens`, `PathTemplate.contains_placeholders_iff` — the names behind opening braces;
* `Declarations.location?_of_parents` — the place that a class names which derives from an extractor;
* `Route.ReadFrom` — where the argument of a parameter comes from, by its type and its name;
* `Route.MisplacedAt`, `Source.missing` — an extractor that names no part of a request, and the failure for it;
* `Route.sourceOf_eq_ok_iff`, `Route.exists_locate_eq_ok` — one parameter, and all of a signature;
* `Route.handler_parted` — the route of a handler, and when there is none.
-/

namespace RouteDoc

namespace PathTemplate

/-! ### Names behind opening braces -/

/-- The name is the longest run of word characters behind an opening brace of the text. -/
def OpensIn (cs name : List Char) : Prop :=
  ∃ before after, cs = before ++ '\x7b' :: (name ++ after) ∧ name ≠ [] ∧ (∀ c ∈ name, Text.isWord c = true) ∧
    ∀ c ∈ after.head?, Text.isWord c = false

/-- The name stands behind an opening brace of the path. -/
def Opens (path name : String) : Prop := OpensIn path.toList name.toList

/-- A run of word characters is the longest one when no further one follows. -/
theorem takeWhile_isWord {name after : List Char} (hname : ∀ c ∈ name, Text.isWord c = true)
    (hafter : ∀ c ∈ after.head?, Text.isWord c = false) : (name ++ after).takeWhile Text.isWord = name := by
  rw [List.takeWhile_append_of_pos hname]
  cases after with
  | nil => simp
  | cons c after => simp [hafter c rfl]

theorem isWord_of_mem_takeWhile {cs : List Char} {c : Char} (h : c ∈ cs.takeWhile Text.isWord) :
    Text.isWord c = true := List.all_eq_true.1 List.all_takeWhile c h

theorem isWord_of_mem_head?_dropWhile {cs : List Char} {c : Char} (h : c ∈ (cs.dropWhile Text.isWord).head?) :
    Text.isWord c = false := by
  induction cs with
  | nil => cases h
  | cons d cs ih =>
    rw [List.dropWhile_cons] at h
    split at h
    · exact ih h
    · next hd =>
      cases h
      simpa using hd

theorem mem_names_cons {c : Char} {rest name : List Char} :
    name ∈ names (c :: rest) ↔
      (c = '\x7b' ∧ rest.takeWhile Text.isWord = name ∧ name ≠ []) ∨ name ∈ names rest := by
  rw [names]
  split
  · next hc =>
    split
    · next hnil =>
      refine ⟨.inr, ?_⟩
      rintro (⟨-, hname, hne⟩ | hrest)
      · exact absurd (hname.symm.trans hnil) hne
      · exact hrest
    · next run hrun =>
      rw [List.mem_cons]
      refine or_congr_left ⟨?_, fun h => h.2.1.symm⟩
      rintro rfl
      exact ⟨hc, rfl, hrun⟩
  · next hc => simp [hc]

/-- **The names of a path are those behind its opening braces**, each as long as it can be. -/
theorem mem_names_iff {cs name : List Char} : name ∈ names cs ↔ OpensIn cs name := by
  induction cs with
  | nil => simp [names, OpensIn]
  | cons c rest ih =>
    rw [mem_names_cons, ih]
    constructor
    · rintro (⟨rfl, rfl, hne⟩ | ⟨before, after, rfl, hname⟩)
      · exact ⟨[], rest.dropWhile Text.isWord, by rw [List.takeWhile_append_dropWhile]; rfl, hne,
          fun d hd => isWord_of_mem_takeWhile hd, fun d hd => isWord_of_mem_head?_dropWhile hd⟩
      · exact ⟨c :: before, after, rfl, hname⟩
    · rintro ⟨before, after, hsplit, hname⟩
      cases before with
      | nil =>
        obtain ⟨rfl, rfl⟩ := List.cons.inj hsplit
        exact .inl ⟨rfl, takeWhile_isWord hname.2.1 hname.2.2, hname.1⟩
      | cons d before =>
        obtain ⟨rfl, rfl⟩ := List.cons.inj hsplit
        exact .inr ⟨before, after, rfl, hname⟩

theorem contains_placeholders_iff (path name : String) :
    (placeholders path).contains name = true ↔ Opens path name := by
  rw [placeholders, List.contains_iff_mem, List.mem_map, Opens, ← mem_names_iff]
  constructor
  · rintro ⟨found, hin, rfl⟩
    rwa [String.toList_ofList]
  · exact fun hin => ⟨name.toList, hin, String.ofList_toList⟩

end PathTemplate

/-! ### Places that extractors name -/

namespace Source

theorem eq_of_name_eq {source other : Source} (h : source.name = other.name) : source = other := by
  cases source <;> cases other <;> first | rfl | simp [name] at h

/-- A place names a source by its text. -/
theorem ofPlace_eq_ok {place : Datum} {source : Source} :
    ofPlace place = .ok source ↔ place.text? = some source.name := by
  have hall : source ∈ all := by cases source <;> decide
  unfold ofPlace
  constructor
  · intro h
    split at h
    · next found hfound =>
      cases h
      obtain ⟨text, htext, hname⟩ := Option.bind_eq_some_iff.1 hfound
      have hnamed := List.find?_some hname
      rw [htext, beq_iff_eq.1 hnamed]
    · split at h <;> cases h
  · intro h
    rw [h, Option.bind_some]
    cases hfound : all.find? fun other => other.name == source.name with
    | none => exact absurd (List.find?_eq_none.1 hfound source hall) (by simp)
    | some other =>
      have hname : (other.name == source.name) = true := by simpa using List.find?_some hfound
      rw [eq_of_name_eq (beq_iff_eq.1 hname)]

/-- The failure for a place that is no part of a request: it is looked up among the sources, so a value that cannot
be a key fails as such. -/
def missing (place : Datum) : Failure :=
  match place.obstacle? with
  | some kind => .notAKey kind
  | none => .noPlace place.display

theorem ofPlace_eq_error {place : Datum} (h : ∀ source : Source, place.text? ≠ some source.name) :
    ofPlace place = .error (missing place) := by
  have hok : ∀ source, ofPlace place ≠ .ok source := fun source hs => h source (ofPlace_eq_ok.1 hs)
  unfold ofPlace at hok ⊢
  split
  · next source hsource =>
    rw [hsource] at hok
    exact absurd rfl (hok source)
  · unfold missing
    cases place.obstacle? <;> rfl

end Source

namespace Declarations

variable {env : Declarations}

theorem location?_extractor (e : Extractor) (arg : Option TypeExpr) :
    env.location? (.extractor e arg) = e.ownLocation?.map .str := by
  cases e <;> rfl

/-- The place that a class names which derives from an extractor with a place of its own. -/
def placeOf (d : Declaration) (inherited : String) : Option Datum :=
  match attribute? d "location" with
  | some .null => none
  | some place => some place
  | none => some (.str inherited)

section

variable {t : TypeExpr} {id : String} {d : Declaration} {e : Extractor}

/-- A class that derives from an extractor, with or without an argument, comes before it and what it derives from. -/
theorem resolution_of_parents (ht : t.origin? = some (.declared id)) (hd : env.find? id = some d)
    (hparents : parents d = [.extractor e]) :
    env.resolution t = .declared id :: e.ancestry.map .extractor := by
  rw [resolution, ht, Option.map_some, Option.getD_some, resolutionWithin, hd]
  simp only [hparents, List.map_cons, List.map_nil, resolutionWithin]
  cases e <;> rfl

theorem isBodyExtractor_of_parents (ht : t.origin? = some (.declared id)) (hd : env.find? id = some d)
    (hparents : parents d = [.extractor e]) : env.isBodyExtractor t = e.isBody := by
  rw [isBodyExtractor, extractors, resolution_of_parents ht hd hparents]
  cases e <;> rfl

theorem location?_of_parents (ht : t.origin? = some (.declared id)) (hd : env.find? id = some d)
    (hparents : parents d = [.extractor e]) : env.location? t = e.ownLocation?.bind (placeOf d) := by
  have hplaceOf : placeOf d = fun inherited => placeOf d inherited := rfl
  rw [location?, isRequestParam, extractors, extractorAttribute, resolution_of_parents ht hd hparents, hplaceOf]
  simp only [List.findSome?_cons, hd, Option.bind_some, placeOf]
  cases attribute? d "location" with
  | none => cases e <;> rfl
  | some place => cases e <;> cases place <;> rfl

end

end Declarations

namespace Route

variable {types : Declarations} {path : String} {p : Param} {params : List Param}

/-- Where the argument of a parameter comes from. -/
inductive ReadFrom (types : Declarations) (path : String) (p : Param) : Source → Prop
  /-- An extractor of bodies decides first. -/
  | body : types.isBodyExtractor p.type = true → ReadFrom types path p .body
  /-- An extractor of request parameters names the place. -/
  | named {place : Datum} {source : Source} : types.isBodyExtractor p.type = false →
      types.location? p.type = some place → place.text? = some source.name → ReadFrom types path p source
  | opened : types.isBodyExtractor p.type = false → types.location? p.type = none →
      PathTemplate.Opens path p.name → ReadFrom types path p .path
  | other : types.isBodyExtractor p.type = false → types.location? p.type = none →
      ¬ PathTemplate.Opens path p.name → ReadFrom types path p .query

/-- The extractor of a parameter names a place that is no part of a request. -/
def MisplacedAt (types : Declarations) (p : Param) (place : Datum) : Prop :=
  types.isBodyExtractor p.type = false ∧ types.location? p.type = some place ∧
    ∀ source : Source, place.text? ≠ some source.name

theorem sourceOf_of_isBodyExtractor {placeholders : List String} (h : types.isBodyExtractor p.type = true) :
    sourceOf types placeholders p = .ok .body := by
  rw [sourceOf, if_pos h]

theorem sourceOf_of_location?_eq_some {placeholders : List String} {place : Datum}
    (h : types.isBodyExtractor p.type = false) (hplace : types.location? p.type = some place) :
    sourceOf types placeholders p = Source.ofPlace place := by
  rw [sourceOf, h, hplace]
  rfl

theorem sourceOf_of_location?_eq_none {placeholders : List String} (h : types.isBodyExtractor p.type = false)
    (hplace : types.location? p.type = none) :
    sourceOf types placeholders p = .ok (if placeholders.contains p.name then .path else .query) := by
  rw [sourceOf, h, hplace]
  rfl

/-- **One parameter**: it is read from where its type and its name say. -/
theorem sourceOf_eq_ok_iff {source : Source} :
    sourceOf types (PathTemplate.placeholders path) p = .ok source ↔ ReadFrom types path p source := by
  constructor
  · intro h
    cases hbody : types.isBodyExtractor p.type with
    | true =>
      rw [sourceOf_of_isBodyExtractor hbody] at h
      cases h
      exact .body hbody
    | false =>
      cases hplace : types.location? p.type with
      | some place =>
        rw [sourceOf_of_location?_eq_some hbody hplace] at h
        exact .named hbody hplace (Source.ofPlace_eq_ok.1 h)
      | none =>
        rw [sourceOf_of_location?_eq_none hbody hplace] at h
        split at h
        · next hname =>
          cases h
          exact .opened hbody hplace ((PathTemplate.contains_placeholders_iff _ _).1 hname)
        · next hname =>
          cases h
          exact .other hbody hplace fun hopens => hname ((PathTemplate.contains_placeholders_iff _ _).2 hopens)
  · rintro (hbody | ⟨hbody, hplace, htext⟩ | ⟨hbody, hplace, hopens⟩ | ⟨hbody, hplace, hopens⟩)
    · exact sourceOf_of_isBodyExtractor hbody
    · rw [sourceOf_of_location?_eq_some hbody hplace]
      exact Source.ofPlace_eq_ok.2 htext
    · rw [sourceOf_of_location?_eq_none hbody hplace, if_pos ((PathTemplate.contains_placeholders_iff _ _).2 hopens)]
    · rw [sourceOf_of_location?_eq_none hbody hplace,
        if_neg fun hname => hopens ((PathTemplate.contains_placeholders_iff _ _).1 hname)]

/-- A parameter is read from one source alone. -/
theorem ReadFrom.unique {source other : Source} (h : ReadFrom types path p source) (h' : ReadFrom types path p other) :
    source = other := Except.ok.inj ((sourceOf_eq_ok_iff.2 h).symm.trans (sourceOf_eq_ok_iff.2 h'))

theorem sourceOf_of_misplacedAt {placeholders : List String} {place : Datum} (h : MisplacedAt types p place) :
    sourceOf types placeholders p = .error (Source.missing place) := by
  obtain ⟨hbody, hplace, htext⟩ := h
  rw [sourceOf_of_location?_eq_some hbody hplace, Source.ofPlace_eq_error htext]

/-- A parameter that is not misplaced is read from some source. -/
theorem exists_readFrom (path : String) (h : ∀ place, ¬ MisplacedAt types p place) :
    ∃ source, ReadFrom types path p source := by
  cases hbody : types.isBodyExtractor p.type with
  | true => exact ⟨.body, .body hbody⟩
  | false =>
    cases hplace : types.location? p.type with
    | some place =>
      by_contra hnone
      exact h place ⟨hbody, hplace, fun source htext => hnone ⟨source, .named hbody hplace htext⟩⟩
    | none =>
      by_cases hopens : PathTemplate.Opens path p.name
      · exact ⟨.path, .opened hbody hplace hopens⟩
      · exact ⟨.query, .other hbody hplace hopens⟩

/-! ### All parameters of a signature -/

theorem exists_locate_eq_ok (path : String) (h : ∀ p ∈ params, ∀ place, ¬ MisplacedAt types p place) :
    ∃ located, locate types (PathTemplate.placeholders path) params = .ok located := by
  induction params with
  | nil => exact ⟨[], rfl⟩
  | cons p params ih =>
    obtain ⟨source, hsource⟩ := exists_readFrom path (h p List.mem_cons_self)
    obtain ⟨located, hlocated⟩ := ih fun q hq => h q (List.mem_cons_of_mem _ hq)
    refine ⟨(source, p) :: located, ?_⟩
    rw [locate, sourceOf_eq_ok_iff.2 hsource, hlocated]
    rfl

/-- The first parameter that is misplaced fails. -/
theorem locate_eq_error {before after : List Param} {place : Datum}
    (hbefore : ∀ q ∈ before, ∀ place, ¬ MisplacedAt types q place) (hp : MisplacedAt types p place) :
    locate types (PathTemplate.placeholders path) (before ++ p :: after) = .error (Source.missing place) := by
  induction before with
  | nil =>
    rw [List.nil_append, locate, sourceOf_of_misplacedAt hp]
    rfl
  | cons q before ih =>
    obtain ⟨source, hsource⟩ := exists_readFrom path (hbefore q List.mem_cons_self)
    rw [List.cons_append, locate, sourceOf_eq_ok_iff.2 hsource, ih fun x hx => hbefore x (List.mem_cons_of_mem _ hx)]
    rfl

/-- Among parameters of which some are misplaced there is a first one. -/
theorem exists_first_misplaced (h : ∃ p ∈ params, ∃ place, MisplacedAt types p place) :
    ∃ before p after place, params = before ++ p :: after ∧
      (∀ q ∈ before, ∀ place, ¬ MisplacedAt types q place) ∧ MisplacedAt types p place := by
  induction params with
  | nil => simp at h
  | cons q params ih =>
    by_cases hq : ∃ place, MisplacedAt types q place
    · obtain ⟨place, hplace⟩ := hq
      exact ⟨[], q, params, place, rfl, by simp, hplace⟩
    · obtain ⟨p, hp, hmisplaced⟩ := h
      have hrest : ∃ p ∈ params, ∃ place, MisplacedAt types p place := by
        rcases List.mem_cons.1 hp with rfl | hp
        · exact absurd hmisplaced hq
        · exact ⟨p, hp, hmisplaced⟩
      obtain ⟨before, p, after, place, rfl, hbefore, hplace⟩ := ih hrest
      exact ⟨q :: before, p, after, place, rfl,
        List.forall_mem_cons.2 ⟨fun place hplace => hq ⟨place, hplace⟩, hbefore⟩, hplace⟩

/-- **No parameter is lost or doubled** when located parameters are sorted by their sources. -/
theorem perm_paramsFrom (located : List (Source × Param)) :
    (Source.all.flatMap fun source => paramsFrom source located).Perm (located.map (·.2)) := by
  induction located with
  | nil => exact .nil
  | cons l located ih =>
    obtain ⟨source, p⟩ := l
    have hcons : ∀ other, paramsFrom other ((source, p) :: located) =
        (if source = other then [p] else []) ++ paramsFrom other located := by
      intro other
      by_cases heq : source = other <;> simp [paramsFrom, heq]
    have hone : (Source.all.flatMap fun other => if source = other then [p] else []) = [p] := by
      cases source <;> rfl
    simp only [hcons]
    refine (List.flatMap_append_perm _ _ _).symm.trans ?_
    rw [hone]
    exact ih.cons p

theorem paramsFrom_sublist (source : Source) (located : List (Source × Param)) :
    (paramsFrom source located).Sublist (located.map (·.2)) := List.filter_sublist.map _

/-- **What the four lists hold**: each list keeps the order of the signature, and holds the parameters that are read
from its source. -/
theorem mem_paramsFrom_iff {located : List (Source × Param)}
    (h : locate types (PathTemplate.placeholders path) params = .ok located) {source : Source} :
    p ∈ paramsFrom source located ↔ p ∈ params ∧ ReadFrom types path p source := by
  obtain ⟨hparams, hsources⟩ := of_locate_eq_ok h
  rw [mem_paramsFrom, ← hparams]
  constructor
  · exact fun hin => ⟨List.mem_map.2 ⟨_, hin, rfl⟩, sourceOf_eq_ok_iff.1 (hsources _ hin)⟩
  · rintro ⟨hin, hread⟩
    obtain ⟨⟨other, q⟩, hq, rfl⟩ := List.mem_map.1 hin
    rw [hread.unique (sourceOf_eq_ok_iff.1 (hsources _ hq))]
    exact hq

/-- The parameters of a signature are not all located exactly when one of them is misplaced. -/
theorem exists_locate_eq_error_iff : (∃ f, locate types (PathTemplate.placeholders path) params = .error f) ↔
    ∃ p ∈ params, ∃ place, MisplacedAt types p place := by
  constructor
  · rintro ⟨f, hf⟩
    by_contra hnone
    obtain ⟨located, hlocated⟩ := exists_locate_eq_ok path fun p hp place hplace =>
      hnone ⟨p, hp, place, hplace⟩
    rw [hlocated] at hf
    cases hf
  · intro h
    obtain ⟨before, p, after, place, rfl, hbefore, hp⟩ := exists_first_misplaced h
    exact ⟨_, locate_eq_error hbefore hp⟩

/-! ### The route of a handler -/

/-- The parameters of a route that are read from a source. -/
def paramsOf (route : Route) : Source → List Param
  | .path => route.pathParams
  | .query => route.queryParams
  | .header => route.headerParams
  | .body => route.bodyParams

/-- The parameters of a handler that take one argument each, given the types of its names. -/
def paramsGiven (types : Declarations) (hints : List (String × TypeExpr)) (parameters : List Parameter) :
    List Param :=
  (parameters.filter fun p => p.passing != .gathered).map fun p =>
    Param.infer types p.name ((hints.lookup p.name).getD .any) p.default

theorem textItems_map_str (field : String) (index : Nat) (texts : List String) :
    Field.textItems field index (texts.map .str) = .ok texts := by
  induction texts generalizing index with
  | nil => rfl
  | cons text texts ih =>
    rw [List.map_cons, Field.textItems, ih]
    rfl

/-- How the route of a handler comes about once its types are known. -/
theorem ofHandler_eq {method path : String} {handler : Signature} {hints : List (String × TypeExpr)}
    (tags : Option (List String)) (h : types.signatureHints handler = .ok hints) :
    ofHandler types method path handler (tags.map fun ts => .list (ts.map .str)) =
      (locate types (PathTemplate.placeholders path) (paramsGiven types hints handler.parameters)).map fun located =>
        ⟨path, method, paramsFrom .path located, paramsFrom .query located, paramsFrom .header located,
          paramsFrom .body located, (hints.lookup "return").toList, tags.getD []⟩ := by
  have hparams : types.signatureParams handler = .ok (paramsGiven types hints handler.parameters) := by
    rw [Declarations.signatureParams, h]
    rfl
  have htags : Field.texts "tags" (((tags.map fun ts => Value.list (ts.map .str)).filter Value.isTruthy).getD
      (.list [])) = .ok (tags.getD []) := by
    cases tags with
    | none => rfl
    | some ts =>
      cases ts with
      | nil => rfl
      | cons t ts =>
        rw [Option.map_some, Option.filter_some_pos rfl, Option.getD_some, Field.texts, textItems_map_str]
        rfl
  rw [ofHandler, h, hparams]
  show (locate types _ _ >>= fun located => RouteRecord.validate _) = _
  cases locate types (PathTemplate.placeholders path) (paramsGiven types hints handler.parameters) with
  | error f => rfl
  | ok located =>
    show RouteRecord.validate _ = _
    rw [RouteRecord.validate, htags]
    rfl

/-- Types that cannot be read fail because of a text in the module of the handler. -/
theorem unreadable_of_signatureHints {handler : Signature} {f : Failure} (h : types.signatureHints handler = .error f) :
    types.IsUnreadable [handler.meaning] f := by
  rcases of_bind_eq_error h with h | ⟨found, -, h⟩
  · refine (Declarations.unreadable_of_resolveAll h).mono fun meaning hin => ?_
    obtain ⟨e, he, rfl⟩ := List.mem_map.1 hin
    exact List.mem_singleton.2 (Declarations.meaning_of_mem_annotated he)
  · cases h

/-- **The parameters of a handler are parted over four lists.**  Where a text among its annotations cannot be read,
there is no route, and the failure is that of the text.  Let the annotations of a handler be read, then, be it that
all are resolved or that they are taken as they stand.  There is no route exactly when the extractor of a parameter
names a place that is no part of a request, and the failure is then that of the first such parameter.  Otherwise the
four lists together hold every parameter that takes one argument, each once; each list keeps the order of the
signature and holds the parameters that are read from its source: an extractor of bodies says so first, then the place
that an extractor of request parameters names, and without either the name decides, which may stand behind an opening
brace of the path.  What extractors name themselves is what classes derived from them name, unless these say
otherwise. -/
theorem handler_parted (types : Declarations) (method path : String) (handler : Signature)
    (tags : Option (List String)) :
    let outcome := ofHandler types method path handler (tags.map fun ts => .list (ts.map .str))
    (∀ f, types.signatureHints handler = .error f → outcome = .error f ∧ types.IsUnreadable [handler.meaning] f) ∧
    (∀ hints, types.signatureHints handler = .ok hints →
      let params := paramsGiven types hints handler.parameters
      ((∃ f, outcome = .error f) ↔ ∃ p ∈ params, ∃ place, MisplacedAt types p place) ∧
      (∀ before p after place, params = before ++ p :: after →
        (∀ q ∈ before, ∀ other, ¬ MisplacedAt types q other) → MisplacedAt types p place →
          outcome = .error (Source.missing place)) ∧
      ∀ route, outcome = .ok route →
        route.path = path ∧ route.method = method ∧ route.tags = tags.getD [] ∧
          (Source.all.flatMap route.paramsOf).Perm params ∧
          ∀ source, (route.paramsOf source).Sublist params ∧
            ∀ p, p ∈ route.paramsOf source ↔ p ∈ params ∧ ReadFrom types path p source) ∧
    (∀ p source other, ReadFrom types path p source → ReadFrom types path p other → source = other) ∧
    (∀ e arg, types.isBodyExtractor (.extractor e arg) = e.isBody ∧
      types.location? (.extractor e arg) = e.ownLocation?.map .str) ∧
    (∀ t id d e, t.origin? = some (.declared id) → types.find? id = some d → Declarations.parents d = [.extractor e] →
      types.isBodyExtractor t = e.isBody ∧ types.location? t = e.ownLocation?.bind (Declarations.placeOf d)) := by
  intro outcome
  refine ⟨fun f hf => ⟨?_, unreadable_of_signatureHints hf⟩, fun hints hhints => ?_,
    fun p source other => ReadFrom.unique,
    fun e arg => ⟨Declarations.isBodyExtractor_extractor types e arg, Declarations.location?_extractor e arg⟩,
    fun t id d e ht hd hparents => ⟨Declarations.isBodyExtractor_of_parents ht hd hparents,
      Declarations.location?_of_parents ht hd hparents⟩⟩
  · show ofHandler types method path handler _ = _
    rw [ofHandler, hf]
    rfl
  intro params
  have houtcome : outcome = (locate types (PathTemplate.placeholders path) params).map _ := ofHandler_eq tags hhints
  rw [houtcome]
  refine ⟨?_, fun before p after place hsplit hbefore hp => ?_, fun route hroute => ?_⟩
  · exact (exists_congr fun f => map_eq_error_iff).trans exists_locate_eq_error_iff
  · rw [hsplit, locate_eq_error hbefore hp]
    rfl
  · obtain ⟨located, hlocated, rfl⟩ := exists_of_map_eq_ok hroute
    have hparamsOf : ∀ source, paramsOf ⟨path, method, paramsFrom .path located, paramsFrom .query located,
        paramsFrom .header located, paramsFrom .body located, (hints.lookup "return").toList, tags.getD []⟩ source =
          paramsFrom source located := by
      intro source
      cases source <;> rfl
    refine ⟨rfl, rfl, rfl, ?_, fun source => ?_⟩
    · rw [funext hparamsOf, ← (of_locate_eq_ok hlocated).1]
      exact perm_paramsFrom located
    · rw [hparamsOf]
      refine ⟨?_, fun p => mem_paramsFrom_iff hlocated⟩
      rw [← (of_locate_eq_ok hlocated).1]
      exact paramsFrom_sublist source located

/-- Classes over an extractor of request parameters and over one of forms, and a marker that derives from some of them
and may name a place. -/
def markers (base : Extractor) (place : Option Datum) (bases : List String) : Declarations :=
  [⟨"Source", "Source", .extractor (.extractor base none), [], [], none⟩,
    ⟨"Payload", "Payload", .extractor (.extractor .form (some (.builtin .int))), [], [], none⟩,
    ⟨"Marker", "Marker", .plain none,
      (place.map fun d => ⟨"location", .builtin .str, some (.shared d), none⟩).toList, bases, none⟩]

/-- A handler with a part of the path, an argument by the marker, a limit, a body, further arguments, and one whose
annotation is a text, which its module reads as an extractor. -/
def petHandler : Signature :=
  ⟨[⟨"id", some (.builtin .int), none, .positional⟩, ⟨"marked", some (.declared "Marker"), none, .positional⟩,
    ⟨"limit", some (.builtin .int), some (.int 10), .keyword⟩,
    ⟨"pet", some (.extractor .json (some (.builtin .str))), none, .keyword⟩,
    ⟨"trace", some (.forward "Header[str]"), none, .keyword⟩,
    ⟨"rest", some (.extractor .requestParam none), none, .gathered⟩], none,
    some fun text =>
      if text = "Header[str]" then .ok (.extractor .header (some (.builtin .str))) else .error .unknownName⟩

/-- The route of the handler. -/
def petRoute (base : Extractor) (place : Option Datum) (bases : List String) : Except Failure Route :=
  ofHandler (markers base place bases) "get" "/pets/\x7bid\x7d" petHandler (some (.list [.str "pets"]))

/-- The names of parameters by their sources. -/
def namesBySource (route : Route) : List (List String) :=
  Source.all.map fun source => (route.paramsOf source).map (·.name)

theorem exists_petRoute (base : Extractor) (place : Option Datum) (bases : List String) {lists : List (List String)}
    (h : ((petRoute base place bases).map namesBySource).toOption = some lists) :
    ∃ route, petRoute base place bases = .ok route ∧ route.namesBySource = lists := by
  cases hroute : petRoute base place bases with
  | error f =>
    rw [hroute] at h
    cases h
  | ok route =>
    rw [hroute] at h
    exact ⟨route, rfl, Option.some.inj h⟩

/-- Parameters for each source; further arguments are no parameter, whatever their extractor. -/
theorem handler_parted_pets :
    ∃ route, petRoute .path (some (.str "header")) ["Source"] = .ok route ∧
      route.namesBySource = [["id"], ["limit"], ["marked", "trace"], ["pet"]] ∧
      (Source.all.flatMap route.paramsOf).length = 5 := by
  obtain ⟨hints, hhints⟩ : ∃ hints, (markers .path (some (.str "header")) ["Source"]).signatureHints petHandler =
      .ok hints := ⟨_, rfl⟩
  have hlists : ((petRoute .path (some (.str "header")) ["Source"]).map namesBySource).toOption =
      some [["id"], ["limit"], ["marked", "trace"], ["pet"]] := by
    decide +kernel
  obtain ⟨route, hroute, hnames⟩ := exists_petRoute _ _ _ hlists
  obtain ⟨-, hread, -⟩ := handler_parted (markers .path (some (.str "header")) ["Source"]) "get"
    "/pets/\x7bid\x7d" petHandler (some ["pets"])
  obtain ⟨-, -, hparted⟩ := hread hints hhints
  obtain ⟨-, -, -, hperm, -⟩ := hparted route hroute
  refine ⟨route, hroute, hnames, ?_⟩
  rw [hperm.length_eq, paramsGiven, List.length_map]
  rfl

/-- A handler with an annotation in which a class is asked for an attribute that it lacks. -/
def strayHandler : Signature :=
  ⟨[⟨"x", some (.forward "Pet.Id"), none, .positional⟩], none,
    some fun _ => .error (.raised (.lacks (.type "Pet") "Id"))⟩

/-- **Extractors of request parameters that name no part of a request.**  The failure names the place, and is another
one where the place cannot be a key; a marker that reads from the body is read from there, and one that sets its
place to nothing by its name; and a marker that is an extractor of bodies besides is read from the body.  A text that
cannot be read fails without any extractor. -/
theorem markers_beyond_requests :
    (∀ base place bases, (base, place, bases) ∈ [(Extractor.path, some (Datum.str "cookie"), ["Source"]),
        (.path, some (.gathering .list [.str "query"]), ["Source"]), (.query, some (.str "body"), ["Source"]),
        (.query, some .null, ["Source"]), (.requestParam, none, ["Source", "Payload"])] →
      (markers base place bases).isRequestParam (.declared "Marker") = true ∧
        ∀ source ∈ [Source.path, .query, .header],
          ((markers base place bases).location? (.declared "Marker")).bind Datum.text? ≠ some source.name) ∧
    petRoute .path (some (.str "cookie")) ["Source"] = .error (.noPlace "'cookie'") ∧
    petRoute .path (some (.str "cookie")) ["Source"] ≠ .error (.noPlace "''") ∧
    petRoute .path (some (.gathering .list [.str "query"])) ["Source"] = .error (.notAKey "list") ∧
    (∃ route, petRoute .query (some (.str "body")) ["Source"] = .ok route ∧
      route.namesBySource = [["id"], ["limit"], ["trace"], ["marked", "pet"]]) ∧
    (∃ route, petRoute .query (some .null) ["Source"] = .ok route ∧
      route.namesBySource = [["id"], ["marked", "limit"], ["trace"], ["pet"]]) ∧
    (∃ route, petRoute .requestParam none ["Source", "Payload"] = .ok route ∧
      route.namesBySource = [["id"], ["limit"], ["trace"], ["marked", "pet"]]) ∧
    Declarations.isRequestParam [] (.forward "Pet.Id") = false ∧
    ofHandler [] "get" "/\x7bx\x7d" strayHandler none = .error (.lacks (.type "Pet") "Id") := by
  have hcookie : petRoute .path (some (.str "cookie")) ["Source"] = .error (.noPlace "'cookie'") := rfl
  refine ⟨?_, hcookie, by rw [hcookie]; simp, rfl, ?_, ?_, ?_, rfl, rfl⟩
  · intro base place bases hin
    simp only [List.mem_cons, List.not_mem_nil, or_false, Prod.mk.injEq] at hin
    rcases hin with ⟨rfl, rfl, rfl⟩ | ⟨rfl, rfl, rfl⟩ | ⟨rfl, rfl, rfl⟩ | ⟨rfl, rfl, rfl⟩ | ⟨rfl, rfl, rfl⟩ <;>
      exact ⟨by decide +kernel, by decide +kernel⟩
  · exact exists_petRoute _ _ _ (by decide +kernel)
  · exact exists_petRoute _ _ _ (by decide +kernel)
  · exact exists_petRoute _ _ _ (by decide +kernel)

end Route

end RouteDoc
