import RouteDoc.Proofs.Flattening
import RouteDoc.Proofs.Fragments
import RouteDoc.Proofs.PathCleaning
import RouteDoc.Proofs.Publication

/-!
# Path parameters

The parameters of a handler are sorted by the names behind the opening braces of its path, and the document knows
the path by what cleaning leaves of it.  Both read the same placeholders off a path of texts and placeholders whose
patterns have no braces and close a segment: a parameter that is no extractor is listed as part of the path exactly
if its name stands in braces in the key of the path.

* `PathTemplate.names_parts` — the names behind opening braces are those of the placeholders;
* `PathTemplate.mentions_clean` — which names stand in braces in a clean path;
* `Route.of_ofHandler_eq_ok` — how a route is read off a handler;
* `Documentation.parameter_located` — where the parameters of a handler are listed.
-/

namespace RouteDoc

namespace PathTemplate

/-! ### Names behind opening braces -/

/-- If the part has a pattern, it closes a segment in front of a text, and its pattern has no braces. -/
def Part.Flat : Part → List Char → Prop
  | restricted _ pattern _, after => endsSegment after = true ∧ '\x7b' ∉ pattern ∧ '\x7d' ∉ pattern
  | _, _ => True

instance (part : Part) (after : List Char) : Decidable (part.Flat after) :=
  match part with
  | .literal _ _ => isTrue trivial
  | .plain _ => isTrue trivial
  | .restricted _ pattern _ =>
    inferInstanceAs (Decidable (endsSegment after = true ∧ '\x7b' ∉ pattern ∧ '\x7d' ∉ pattern))

theorem Part.Flat.closes {part : Part} {after : List Char} (h : part.Flat after) : part.Closes after := by
  cases part with
  | restricted name pattern hline => exact ⟨h.1, fun hin => h.2.2 (hin.subset List.mem_cons_self)⟩
  | _ => trivial

/-- The name of a placeholder. -/
def Part.name? : Part → Option (List Char)
  | literal _ _ => none
  | plain name => some name.chars
  | restricted name _ _ => some name.chars

/-- Text without opening braces names nothing. -/
theorem names_literal {text : List Char} (h : '\x7b' ∉ text) (after : List Char) :
    names (text ++ after) = names after := by
  induction text with
  | nil => rfl
  | cons c text ih =>
    rw [List.mem_cons, not_or] at h
    rw [List.cons_append, names, if_neg (Ne.symm h.1), ih h.2]

/-- A name is read up to the first character that is none of a name. -/
theorem names_brace (name : Name) {c : Char} (hc : Text.isWord c = false) (rest : List Char) :
    names ('\x7b' :: (name.chars ++ c :: rest)) = name.chars :: names (c :: rest) := by
  have hspan : (name.chars ++ c :: rest).takeWhile Text.isWord = name.chars := by
    rw [List.takeWhile_append_of_pos name.isWord]
    simp [hc]
  have hrest : names (name.chars ++ c :: rest) = names (c :: rest) :=
    names_literal (name.notMem (by decide)) _
  rw [names, if_pos rfl, hspan, hrest]
  split
  · next hnil => exact absurd hnil name.nonempty
  · rfl

theorem names_part {part : Part} {after : List Char} (h : part.Flat after) :
    names (part.chars ++ after) = part.name?.toList ++ names after := by
  cases part with
  | literal text braceless => exact names_literal braceless.1 after
  | plain name =>
    have hclosing : '\x7b' ∉ ['\x7d'] := by decide
    have hbrace : names ('\x7d' :: after) = names after := names_literal hclosing after
    simpa [Part.chars, Part.name?, hbrace] using names_brace name (c := '\x7d') (by decide) after
  | restricted name pattern hline =>
    have hpattern : '\x7b' ∉ ':' :: (pattern ++ ['\x7d']) := by simp [h.2.1]
    have hrest : names (':' :: (pattern ++ '\x7d' :: after)) = names after := by
      simpa using names_literal hpattern after
    simpa [Part.chars, Part.name?, hrest] using names_brace name (c := ':') (by decide) (pattern ++ '\x7d' :: after)

/-- **The names behind the opening braces of a path are the names of its placeholders**, in order. -/
theorem names_parts {parts : List Part} {after : List Char} (h : Throughout Part.Flat after parts) :
    names (chars parts ++ after) = parts.filterMap Part.name? ++ names after := by
  induction parts with
  | nil => rfl
  | cons part parts ih =>
    have happend : chars (part :: parts) ++ after = part.chars ++ (chars parts ++ after) := by simp [chars]
    rw [happend, names_part h.1, ih h.2]
    cases hname : part.name? <;> simp [hname]

/-! ### Names in braces -/

/-- The name stands in braces in the path. -/
def Mentions (path name : String) : Prop := '\x7b' :: (name.toList ++ ['\x7d']) <:+: path.toList

instance (path name : String) : Decidable (Mentions path name) :=
  inferInstanceAs (Decidable ('\x7b' :: (name.toList ++ ['\x7d']) <:+: path.toList))

/-- What begins with a character begins nowhere in a text without it. -/
theorem infix_append_iff {c : Char} {text : List Char} (h : c ∉ text) (cs rest : List Char) :
    c :: cs <:+: text ++ rest ↔ c :: cs <:+: rest := by
  induction text with
  | nil => rfl
  | cons d text ih =>
    rw [List.mem_cons, not_or] at h
    rw [List.cons_append, List.infix_cons_iff, ih h.2, List.cons_prefix_cons]
    simp [h.1]

theorem takeWhile_ne {c : Char} {text : List Char} (h : c ∉ text) (rest : List Char) :
    (text ++ c :: rest).takeWhile (· != c) = text := by
  have hinside : ∀ d ∈ text, (d != c) = true := by
    rintro d hd
    exact bne_iff_ne.2 (ne_of_mem_of_not_mem hd h)
  rw [List.takeWhile_append_of_pos hinside]
  simp

/-- Texts up to the same character are the same. -/
theorem prefix_closed_iff {c : Char} {name other : List Char} (hname : c ∉ name) (hother : c ∉ other)
    (rest : List Char) : name ++ [c] <+: other ++ c :: rest ↔ name = other := by
  constructor
  · rintro ⟨more, h⟩
    rw [List.append_assoc, List.singleton_append] at h
    rw [← takeWhile_ne hname more, h, takeWhile_ne hother]
  · rintro rfl
    exact ⟨rest, by simp⟩

theorem infix_placeholder_iff {name : List Char} (hname : '\x7d' ∉ name) (other : Name) (rest : List Char) :
    '\x7b' :: (name ++ ['\x7d']) <:+: (Part.plain other).chars ++ rest ↔
      name = other.chars ∨ '\x7b' :: (name ++ ['\x7d']) <:+: rest := by
  have hplain : (Part.plain other).chars ++ rest = '\x7b' :: ((other.chars ++ ['\x7d']) ++ rest) := rfl
  have hopen : '\x7b' ∉ other.chars ++ ['\x7d'] := by
    rw [List.mem_append, not_or]
    exact ⟨other.notMem (by decide), by decide⟩
  rw [hplain, List.infix_cons_iff, infix_append_iff hopen, List.cons_prefix_cons, List.append_assoc]
  simp only [true_and, List.singleton_append, prefix_closed_iff hname (other.notMem (by decide))]

/-- **The names in braces are the names of the placeholders**, when no pattern is left. -/
theorem infix_bare_iff {name : List Char} (hname : '\x7d' ∉ name) (parts : List Part) :
    '\x7b' :: (name ++ ['\x7d']) <:+: parts.flatMap Part.bare ↔ name ∈ parts.filterMap Part.name? := by
  induction parts with
  | nil => simp
  | cons part parts ih =>
    rw [List.flatMap_cons]
    cases part with
    | literal text braceless =>
      rw [show (Part.literal text braceless).bare = text from rfl, infix_append_iff braceless.1, ih]
      simp [Part.name?]
    | plain other =>
      rw [show (Part.plain other).bare = (Part.plain other).chars from rfl, infix_placeholder_iff hname, ih]
      simp [Part.name?]
    | restricted other pattern hline =>
      rw [show (Part.restricted other pattern hline).bare = (Part.plain other).chars from rfl,
        infix_placeholder_iff hname, ih]
      simp [Part.name?]

theorem cleanChars_chars {parts : List Part} (h : Throughout Part.Flat [] parts) :
    cleanChars (chars parts) = parts.flatMap Part.bare := by
  have hcloses : Throughout Part.Closes [] parts := h.imp fun _ _ => Part.Flat.closes
  have hclean := cleanChars_parts (hcloses.imp fun _ _ => Part.Closes.settled)
  simpa [cleanChars, shown_closing hcloses] using hclean

/-- **A clean path mentions exactly the placeholders of the path**, as both are read from it. -/
theorem mentions_clean {parts : List Part} (h : Throughout Part.Flat [] parts) {name : String}
    (hname : '\x7d' ∉ name.toList) :
    Mentions (clean (source parts)) name ↔ (placeholders (source parts)).contains name = true := by
  have hnames := names_parts h
  simp only [List.append_nil, names] at hnames
  rw [Mentions, clean, source, String.toList_ofList, String.toList_ofList, cleanChars_chars h, infix_bare_iff hname,
    placeholders, String.toList_ofList, hnames, List.contains_iff_mem, List.mem_map]
  constructor
  · exact fun hin => ⟨name.toList, hin, String.ofList_toList⟩
  · rintro ⟨found, hin, rfl⟩
    rwa [String.toList_ofList]

end PathTemplate

/-! ### Routes of handlers -/

namespace Declarations

variable {env : Declarations} {p : Param}

/-- What is no extractor derives from none. -/
theorem extractors_eq_nil (h : env.isExtractor p.type = false) : env.extractors p.type = [] := by
  rw [isExtractor, Option.isSome_eq_false_iff, Option.isNone_iff_eq_none, extractor?, Option.or_eq_none_iff] at h
  exact List.head?_eq_none_iff.1 h.2

theorem isRequestParam_eq_false (h : env.isExtractor p.type = false) : env.isRequestParam p.type = false := by
  rw [isRequestParam, extractors_eq_nil h, List.any_nil]

theorem isBodyExtractor_eq_false (h : env.isExtractor p.type = false) : env.isBodyExtractor p.type = false := by
  rw [isBodyExtractor, extractors_eq_nil h, List.any_nil]

/-- The parameters of a handler keep their names and their order. -/
theorem signatureParams_names {handler : Signature} {params : List Param}
    (h : env.signatureParams handler = .ok params) :
    (params.map (·.name)).Sublist (handler.parameters.map (·.name)) := by
  obtain ⟨hints, -, hparams⟩ := exists_of_bind_eq_ok h
  cases hparams
  rw [List.map_map]
  exact List.Sublist.map (fun p : Parameter => p.name) List.filter_sublist

end Declarations

/-- The place that a source stands for in a document. -/
def Source.location? : Source → Option Location
  | .path => some .path
  | .query => some .query
  | .header => some .header
  | .body => none

namespace Route

variable {types : Declarations} {placeholders : List String} {params : List Param}
  {located : List (Source × Param)}

/-- Each parameter is located once, by its own source. -/
theorem of_locate_eq_ok (h : locate types placeholders params = .ok located) :
    located.map (·.2) = params ∧ ∀ l ∈ located, sourceOf types placeholders l.2 = .ok l.1 := by
  induction params generalizing located with
  | nil =>
    cases h
    simp
  | cons p params ih =>
    obtain ⟨source, hsource, h⟩ := exists_of_bind_eq_ok h
    obtain ⟨rest, hrest, h⟩ := exists_of_bind_eq_ok h
    cases h
    obtain ⟨hparams, hsources⟩ := ih hrest
    exact ⟨by rw [List.map_cons, hparams], List.forall_mem_cons.2 ⟨hsource, hsources⟩⟩

theorem mem_paramsFrom {source : Source} {p : Param} : p ∈ paramsFrom source located ↔ (source, p) ∈ located := by
  simp [paramsFrom]

/-- Where a parameter that is no extractor is located. -/
theorem location?_of_not_isExtractor (h : locate types placeholders params = .ok located) {source : Source} {p : Param}
    (hp : (source, p) ∈ located) (hplain : types.isExtractor p.type = false) :
    source.location? = some (if placeholders.contains p.name then .path else .query) := by
  have hplace : types.location? p.type = none := by
    rw [Declarations.location?, Declarations.isRequestParam_eq_false hplain]
    rfl
  have hsource := (of_locate_eq_ok h).2 _ hp
  rw [sourceOf, Declarations.isBodyExtractor_eq_false hplain, hplace] at hsource
  have hsource : (if placeholders.contains p.name then Source.path else .query) = source := Except.ok.inj hsource
  rw [← hsource]
  split <;> rfl

theorem of_validate_eq_ok {r : RouteRecord} {path method : String} {route : Route}
    (hpath : r.path = some (.str path)) (hmethod : r.method = some (.str method)) (h : r.validate = .ok route) :
    route.path = path ∧ route.method = method ∧ route.pathParams = r.pathParams ∧
      route.queryParams = r.queryParams ∧ route.headerParams = r.headerParams := by
  rw [RouteRecord.validate, hpath, hmethod] at h
  split at h
  · next path' method' tags hp hm _ =>
    cases h
    cases hp
    cases hm
    exact ⟨rfl, rfl, rfl, rfl, rfl⟩
  · cases h

/-- The parameters of the route are the located ones, each with those of its own source. -/
structure Holds (route : Route) (located : List (Source × Param)) : Prop where
  path_eq : route.pathParams = paramsFrom .path located
  query_eq : route.queryParams = paramsFrom .query located
  header_eq : route.headerParams = paramsFrom .header located

/-- **How a route is read off a handler**: its path and method are as given, and its parameters are those of the
signature, located by the placeholders of the path. -/
theorem of_ofHandler_eq_ok {method path : String} {handler : Signature} {tags : Option Value} {route : Route}
    (h : ofHandler types method path handler tags = .ok route) :
    route.path = path ∧ route.method = method ∧
      ∃ params located, types.signatureParams handler = .ok params ∧
        locate types (PathTemplate.placeholders path) params = .ok located ∧ route.Holds located := by
  obtain ⟨hints, -, h⟩ := exists_of_bind_eq_ok h
  obtain ⟨params, hparams, h⟩ := exists_of_bind_eq_ok h
  obtain ⟨located, hlocated, h⟩ := exists_of_bind_eq_ok h
  obtain ⟨hpath, hmethod, hpathParams, hqueryParams, hheaderParams⟩ := of_validate_eq_ok rfl rfl h
  exact ⟨hpath, hmethod, params, located, hparams, hlocated, hpathParams, hqueryParams, hheaderParams⟩

end Route

/-! ### Entries of parameters -/

namespace Scope

variable {scope : Scope} {route : Route} {params : List Param} {located : List (Source × Param)}
  {placeholders : List String} {p : Param} {location : Location} {turn : Nat} {x : RequestParameter} {s : Schema}

/-- A parameter that is no extractor stands for itself. -/
theorem entriesFor_of_not_isExtractor (h : scope.types.isExtractor p.type = false) :
    scope.entriesFor location turn p
      = ((scope.fragment p.type).map fun s => scope.entryOf location p s (defaultOf p)).toList := by
  have hself : scope.candidateList turn p = [p] := by
    simp [candidateList, candidates, Declarations.isRequestParam_eq_false h]
  rw [entriesFor, hself, List.filterMap_cons, entryFor, extractType_of_plain h]
  cases scope.fragment p.type <;> rfl

theorem exists_mem_zipIdx {ps : List Param} (start : Nat) : (∃ turn, (p, turn) ∈ ps.zipIdx start) ↔ p ∈ ps := by
  constructor
  · rintro ⟨turn, h⟩
    exact List.fst_mem_of_mem_zipIdx h
  · intro h
    rw [← List.zipIdx_map_fst start ps] at h
    obtain ⟨⟨q, turn⟩, hq, rfl⟩ := List.mem_map.1 h
    exact ⟨turn, hq⟩

/-- The parameters of a route have turns by their sources. -/
theorem exists_mem_inTurn (hroute : route.Holds located) :
    (∃ turn, (location, p, turn) ∈ inTurn route.pathParams route.queryParams route.headerParams) ↔
      ∃ source, (source, p) ∈ located ∧ source.location? = some location := by
  have hplace : ∀ {other : Location} {source : Source} {start : Nat},
      (∃ turn, (location, p, turn) ∈ ((Route.paramsFrom source located).zipIdx start).map (Prod.mk other)) ↔
        location = other ∧ (source, p) ∈ located := fun {other source start} => by
    rw [← Route.mem_paramsFrom, ← exists_mem_zipIdx start]
    constructor
    · rintro ⟨turn, h⟩
      obtain ⟨⟨q, i⟩, hq, heq⟩ := List.mem_map.1 h
      cases heq
      exact ⟨rfl, turn, hq⟩
    · rintro ⟨rfl, turn, h⟩
      exact ⟨turn, List.mem_map_of_mem h⟩
  simp only [inTurn, List.mem_append, exists_or, hroute.path_eq, hroute.query_eq, hroute.header_eq, hplace]
  constructor
  · rintro (⟨rfl, h⟩ | ⟨rfl, h⟩ | ⟨rfl, h⟩)
    · exact ⟨.path, h, rfl⟩
    · exact ⟨.query, h, rfl⟩
    · exact ⟨.header, h, rfl⟩
  · rintro ⟨source, h, hlocation⟩
    cases source <;> cases hlocation
    · exact .inl ⟨rfl, h⟩
    · exact .inr (.inl ⟨rfl, h⟩)
    · exact .inr (.inr ⟨rfl, h⟩)

/-- A parameter that is no extractor is listed by its name. -/
theorem entryOf_mem_parametersOf (hroute : route.Holds located)
    (hlocate : Route.locate scope.types placeholders params = .ok located) (hp : p ∈ params)
    (hplain : scope.types.isExtractor p.type = false) (hs : scope.fragment p.type = some s) :
    scope.entryOf (if placeholders.contains p.name then .path else .query) p s (defaultOf p)
      ∈ scope.parametersOf route := by
  rw [← (Route.of_locate_eq_ok hlocate).1] at hp
  obtain ⟨⟨source, q⟩, hq, rfl⟩ := List.mem_map.1 hp
  have hlocation := Route.location?_of_not_isExtractor hlocate hq hplain
  obtain ⟨turn, hturn⟩ := (exists_mem_inTurn hroute).2 ⟨source, hq, hlocation⟩
  refine List.mem_flatMap.2 ⟨_, hturn, ?_⟩
  show _ ∈ scope.entriesFor _ turn q
  rw [entriesFor_of_not_isExtractor hplain, hs]
  exact List.mem_singleton_self _

/-- No other entry has its name, unless an extractor gives it. -/
theorem eq_entryOf_of_mem_parametersOf (hroute : route.Holds located)
    (hlocate : Route.locate scope.types placeholders params = .ok located) (hnames : (params.map (·.name)).Nodup)
    (hp : p ∈ params) (hs : scope.fragment p.type = some s) (hx : x ∈ scope.parametersOf route)
    (hname : x.name = p.name) :
    x = scope.entryOf (if placeholders.contains p.name then .path else .query) p s (defaultOf p) ∨
      ∃ q ∈ params, scope.types.isExtractor q.type = true ∧
        ∃ location turn, x ∈ scope.entriesFor location turn q := by
  obtain ⟨⟨location, q, turn⟩, hturn, hx⟩ := List.mem_flatMap.1 hx
  obtain ⟨source, hq, hlocation⟩ := (exists_mem_inTurn hroute).1 ⟨turn, hturn⟩
  have hin : q ∈ params := (Route.of_locate_eq_ok hlocate).1 ▸ List.mem_map_of_mem hq
  cases hplain : scope.types.isExtractor q.type with
  | true => exact .inr ⟨q, hin, hplain, location, turn, hx⟩
  | false =>
    dsimp only at hx
    rw [entriesFor_of_not_isExtractor hplain, Option.mem_toList, Option.map_eq_some_iff] at hx
    obtain ⟨s', hs', rfl⟩ := hx
    -- the entry has the name of its parameter, and no two parameters have one
    obtain rfl : q = p := List.inj_on_of_nodup_map hnames hin hp hname
    cases hs.symm.trans hs'
    rw [Route.location?_of_not_isExtractor hlocate hq hplain] at hlocation
    cases hlocation
    exact .inl rfl

end Scope

/-! ### The key of a path and its parameters -/

/-- The parameters of a handler have different names, and none has a closing brace in it. -/
structure Signature.WellNamed (handler : Signature) : Prop where
  distinct : (handler.parameters.map (·.name)).Nodup
  braceless : ∀ p ∈ handler.parameters, '\x7d' ∉ p.name.toList

namespace Documentation

open Value PathTemplate

variable {d e : Documentation} {scope : Scope} {route : Route} {o : Operation}

/-- **What an operation says stands in the document as it says**, whatever the document was before. -/
theorem at?_place_append {p : KeyPath} {w : Value} (hrun : run (register scope route) d = (.ok o, e))
    (hw : o.toValue.at? p = some w) (hleaf : w.isMap = false) : e.document.at? (route.place ++ p) = some w := by
  have hok : (run (register scope route) d).1 = .ok o := by rw [hrun]
  obtain ⟨hd, us, ws, htrav, -⟩ := register_ok hok
  have hproper : (operationOverride route.method o).Proper := by
    rw [eq_operationOf_of_register_ok hok]
    exact operationOverride_proper route.method (d.routeTags route)
  obtain ⟨v, hmerge⟩ : ∃ v : Value,
      v.mergeRoute route.pathKey (operationOverride route.method o) = .ok e.document := by
    rw [run_register_of_traverses hd htrav, run_publish] at hrun
    split at hrun
    · cases hrun
    · next v _ =>
      split at hrun
      · next document hdocument =>
        cases hrun
        exact ⟨v, hdocument⟩
      · cases hrun
  obtain ⟨es, paths, base, -, hdocument⟩ := eq_of_mergeRoute hmerge
  have hat : (operationOverride route.method o).at? (.str route.methodKey :: p) = some w := by
    simpa [operationOverride, Route.methodKey, Value.object, Entries.get?] using hw
  have hover := at?_over_of_at? (hproper.unrepeated.unrepeatedAbove _) hat (some (.map base))
  rw [over_of_not_isMap hleaf, operationOverride, Value.object, over_map_map] at hover
  rw [hdocument]
  simpa [Route.place, operationPath, Entries.get?_set] using hover

/-- **The parameters of a handler and the key of its path name the same placeholders.**  When a handler was
documented under a path of texts and placeholders whose patterns have no braces and close a segment, its parameters
stand in the document under the clean path.  Among them is each parameter that is no extractor and whose type has a
description: in the path if its name stands in braces in the key of the path, and in the query if not.  No other
entry has its name, apart from those that an extractor is spread into. -/
theorem parameter_located {parts : List Part} (hparts : Throughout Part.Flat [] parts) {handler : Signature}
    (hnamed : handler.WellNamed) {method : String} {tags : Option Value}
    (hrun : run (registerHandler scope method (source parts) handler tags) d = (.ok o, e)) :
    e.document.at? (operationPath (clean (source parts)) (Method.key (Method.normalize method)) ++ [.str "parameters"])
        = some (.list (o.parameters.map RequestParameter.toValue)) ∧
      ∃ params, scope.types.signatureParams handler = .ok params ∧
        ∀ p ∈ params, scope.types.isExtractor p.type = false →
          ∀ b c s, (scope.build p.type).run' b = (.ok (some s), c) →
            ∃ x ∈ o.parameters, x = scope.entryOf x.location p s (Scope.defaultOf p) ∧
              x.toValue.get? "in"
                = some (.str (if Mentions (clean (source parts)) p.name then "path" else "query")) ∧
              ∀ y ∈ o.parameters, y.name = p.name → y = x ∨
                ∃ q ∈ params, scope.types.isExtractor q.type = true ∧
                  ∃ location turn, y ∈ scope.entriesFor location turn q := by
  rw [run_registerHandler] at hrun
  cases hroute : Route.ofHandler scope.types method (source parts) handler tags with
  | error f => simp [hroute] at hrun
  | ok route =>
    simp only [hroute] at hrun
    obtain ⟨hpath, hmethod, params, located, hparams, hlocate, hholds⟩ := Route.of_ofHandler_eq_ok hroute
    have hok : (run (register scope route) d).1 = .ok o := by rw [hrun]
    have hoperation : o.parameters = scope.parametersOf route := by
      rw [eq_operationOf_of_register_ok hok]
      rfl
    have hplace : route.place = operationPath (clean (source parts)) (Method.key (Method.normalize method)) := by
      rw [Route.place, Route.pathKey, Route.methodKey, hpath, hmethod]
    have hnames := Declarations.signatureParams_names hparams
    refine ⟨?_, params, hparams, fun p hp hplain b c s hbuild => ?_⟩
    · rw [← hplace]
      exact at?_place_append hrun (by simp [Operation.toValue, Value.object, Entries.get?]) rfl
    · have hs : scope.fragment p.type = some s := Scope.fragment_of_build hbuild
      have hbrace : '\x7d' ∉ p.name.toList := by
        obtain ⟨parameter, hin, hname⟩ := List.mem_map.1 (hnames.subset (List.mem_map_of_mem hp))
        rw [← hname]
        exact hnamed.braceless parameter hin
      have hmentions := mentions_clean hparts hbrace
      rw [hoperation]
      refine ⟨_, Scope.entryOf_mem_parametersOf hholds hlocate hp hplain hs, rfl, ?_, fun y hy hname =>
        Scope.eq_entryOf_of_mem_parametersOf hholds hlocate (hnamed.distinct.sublist hnames) hp hs hy hname⟩
      by_cases hin : (placeholders (source parts)).contains p.name = true
      · rw [if_pos (hmentions.2 hin), if_pos hin]
        rfl
      · rw [if_neg fun h => hin (hmentions.1 h), if_neg hin]
        rfl

/-- One view of a node, which is found by its number. -/
def nodeView : List Part :=
  [.literal "/nodes/".toList (by decide),
    .restricted ⟨"node".toList, by decide, by decide⟩ "\\d+".toList (by decide), .literal "/views/".toList (by decide),
    .plain ⟨"view".toList, by decide, by decide⟩]

/-- A handler of a node's views, which goes down to a depth and takes a label. -/
def viewNode : Signature :=
  ⟨[⟨"view", some (.builtin .str), none, .positional⟩, ⟨"depth", some (.builtin .int), none, .positional⟩,
    ⟨"node", some (.builtin .int), none, .positional⟩,
    ⟨"label", some (.extractor .query (some (.declared "Label"))), none, .positional⟩], none, none⟩

/-- What the handler takes. -/
def viewParams : List Param :=
  [⟨"view", .builtin .str, true, false, .null⟩, ⟨"depth", .builtin .int, true, false, .null⟩,
    ⟨"node", .builtin .int, true, false, .null⟩,
    ⟨"label", .extractor .query (some (.declared "Label")), true, false, .null⟩]

/-- The number of a node stands in the path, and the depth, which the path does not mention, in the query. -/
theorem parameter_located_nodes :
    Throughout Part.Flat [] nodeView ∧ viewNode.WellNamed ∧
      ∃ o e, run (registerHandler Scope.trees "GET" (source nodeView) viewNode none) (new default) = (.ok o, e) ∧
        e.document.at? [.str "paths", .str "/nodes/\x7bnode\x7d/views/\x7bview\x7d", .str "get", .str "parameters"]
          = some (.list (o.parameters.map RequestParameter.toValue)) ∧
        (∃ x ∈ o.parameters, x.name = "node" ∧ x.toValue.get? "in" = some (.str "path")) ∧
        ∃ x ∈ o.parameters, x.name = "depth" ∧ x.toValue.get? "in" = some (.str "query") := by
  have hparts : Throughout Part.Flat [] nodeView := by decide
  have hnamed : viewNode.WellNamed := ⟨by decide, by decide⟩
  have hok : (run (registerHandler Scope.trees "GET" (source nodeView) viewNode none) (new default)).1.toBool
      = true := by decide +kernel
  obtain ⟨o, e, hrun⟩ := exists_run_eq_ok hok
  obtain ⟨hdocument, params, hparams, hlocated⟩ := parameter_located hparts hnamed hrun
  have hkey : clean (source nodeView) = "/nodes/\x7bnode\x7d/views/\x7bview\x7d" := by decide +kernel
  rw [hkey] at hdocument hlocated
  have hview : Scope.trees.types.signatureParams viewNode = .ok viewParams := rfl
  obtain rfl : viewParams = params := Except.ok.inj (hview.symm.trans hparams)
  have hdescribe : Scope.trees.describe (.builtin .int)
      = .ok ⟨some (.simple false .integer (some .int64) none none), none, []⟩ := by
    rw [Scope.describe_of_payload? rfl (by decide)]
    rfl
  have hbuild : (Scope.trees.build (.builtin .int)).run' ⟨[], []⟩
      = (.ok (some (.simple false .integer (some .int64) none none)), ⟨[], []⟩) := by
    rw [Scope.build, Scope.buildWith, Build.run'_bind, Build.run'_lift, hdescribe]
    rfl
  obtain ⟨x, hx, hentry, hnode, -⟩ :=
    hlocated ⟨"node", .builtin .int, true, false, .null⟩ (by simp [viewParams]) rfl _ _ _ hbuild
  obtain ⟨y, hy, hother, hdepth, -⟩ :=
    hlocated ⟨"depth", .builtin .int, true, false, .null⟩ (by simp [viewParams]) rfl _ _ _ hbuild
  rw [if_pos (by decide)] at hnode
  rw [if_neg (by decide)] at hdepth
  exact ⟨hparts, hnamed, o, e, hrun, hdocument, ⟨x, hx, by rw [hentry]; rfl, hnode⟩, y, hy, by rw [hother]; rfl, hdepth⟩

end Documentation

end RouteDoc
