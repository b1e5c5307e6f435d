import RouteDoc.Document
import RouteDoc.Proofs.Files
import RouteDoc.Proofs.Json.Survival
import RouteDoc.Proofs.Yaml.LineEnds
import RouteDoc.Proofs.Yaml.Meanings

/-!
# JSON documents as they are read

Documents are read as YAML, of which JSON is taken to be a part.  It is one nearly: what is read of a JSON text is
known in full, and it is what the text denotes exactly when the leaves of the text survive.  A number with an
exponent becomes a text unless there is a point in front of the exponent and a sign in it, texts lose some line ends,
and names must be short.

* `Document.ofText_source` — what is read of a JSON text;
* `Document.json_read_back` — when that is what the text denotes, and which documents come back from their JSON;
* `Document.json_read_back_exponent` — a document that does not.
-/

namespace RouteDoc

open Json Yaml

namespace Document

/-- The value of an object is a mapping. -/
theorem exists_map_of_isObject {s : Json.Source} (h : s.isObject = true) : ∃ es, s.reread = .map es := by
  obtain ⟨lead, node, trail⟩ := s
  cases node with
  | emptyObject | object => exact ⟨_, rfl⟩
  | word | number | text | emptyList | list => exact Bool.noConfusion h

theorem isObject_of_isMap {s : Json.Source} (h : s.value.isMap = true) : s.isObject = true := by
  obtain ⟨lead, node, trail⟩ := s
  cases node with
  | emptyObject | object => rfl
  | word | number | text | emptyList | list => exact Bool.noConfusion h

/-- What is read of the graph of a text. -/
theorem ofGraph_source (n : FileName) {s : Json.Source} (hstrict : s.isStrict = true) (hobject : s.isObject = true) :
    Outcome (((valueOf (s.node.vertices 0).toArray).bind fun p => ofValue n p.1 p.2).map (·.value))
      (s.node.all .sized) s.reread := by
  have hvalue := valueOf_node hstrict
  obtain ⟨es, hes⟩ := exists_map_of_isObject hobject
  cases hread : valueOf (s.node.vertices 0).toArray with
  | error f =>
    rw [hread] at hvalue
    cases hsized : s.node.all .sized with
    | false => exact ⟨f, rfl⟩
    | true =>
      rw [hsized] at hvalue
      cases hvalue
  | ok p =>
    rw [hread] at hvalue
    cases hsized : s.node.all .sized with
    | false =>
      rw [hsized] at hvalue
      obtain ⟨f, hf⟩ := hvalue
      cases hf
    | true =>
      rw [hsized] at hvalue
      have hp : p.1 = s.reread := Except.ok.inj hvalue
      show (ofValue n p.1 p.2).map (·.value) = .ok s.reread
      rw [hp, hes]
      rfl

/-- **What is read of a JSON text with an object at the top.** -/
theorem ofText_source (n : FileName) {s : Json.Source} (hstrict : s.isStrict = true) (hobject : s.isObject = true)
    (hpairs : s.node.all .unpaired = true) :
    Outcome ((ofText n s.chars).map (·.value)) s.readable s.reread := by
  have hstrict' : s.unix.isStrict = true := by
    rw [show s.unix.isStrict = s.isStrict from s.node.isStrict_unix, hstrict]
  have hobject' : s.unix.isObject = true := by rw [s.isObject_unix, hobject]
  have hclean : '\r' ∉ s.unix.chars := by
    rw [s.chars_unix]
    exact return_notMem_unixLines s.chars
  have hgraph := Json.ofText_source s.unix hobject' (by rw [s.unpaired_unix, hpairs]) hclean
  have hvalue := ofGraph_source n hstrict' hobject'
  rw [s.reread_unix] at hvalue
  have hof : (ofText n s.chars).map (·.value) = (Graph.ofText s.unix.chars).bind fun g =>
      (g.elim (.ok (plain (.map []))) fun graph => (valueOf graph).bind fun p => ofValue n p.1 p.2).map (·.value) := by
    rw [ofText, ← s.chars_unix]
    cases Graph.ofText s.unix.chars with
    | error f => rfl
    | ok g => cases g <;> rfl
  rw [hof, ← s.readable_unix, Json.Source.readable]
  exact hgraph.bind hvalue

/-! ### Files -/

/-- The value of the document in a file, when there is one. -/
def loaded? (f : Folder) (n : FileName) : Option Value := ((load f n).map (·.value)).toOption

theorem loaded?_of_read {f : Folder} {n : FileName} {octets : List UInt8} {text : List Char}
    (hread : f.read n = .ok octets) (hdecode : Utf8.decode octets = .ok text) :
    loaded? f n = ((ofText n text).map (·.value)).toOption := by
  have hload : load f n = ofText n text := by
    rw [load, hread]
    show ofOctets n octets = _
    rw [ofOctets, hdecode]
  rw [loaded?, hload]

theorem loaded?_of_write {f g : Folder} {n : FileName} {text : String} (h : f.write n text = .ok g) :
    loaded? g n = ((ofText n text.toList).map (·.value)).toOption :=
  loaded?_of_read (Folder.read_of_write h) (Utf8.decode_toUTF8 text)

/-- What is read of a JSON text in a file. -/
theorem toOption_ofText (n : FileName) {s : Json.Source} (hstrict : s.isStrict = true) (hobject : s.isObject = true)
    (hpairs : s.node.all .unpaired = true) :
    ((ofText n s.chars).map (·.value)).toOption = if s.readable then some s.reread else none := by
  have hread := ofText_source n hstrict hobject hpairs
  cases hreadable : s.readable with
  | true =>
    rw [hreadable] at hread
    rw [show (ofText n s.chars).map (·.value) = .ok s.reread from hread]
    rfl
  | false =>
    rw [hreadable] at hread
    obtain ⟨f, hf⟩ := hread
    rw [hf]
    rfl

theorem some_of_survives {s : Json.Source} (h : s.survives = true) :
    (if s.readable then some s.reread else none) = some s.value := by
  rw [Json.Source.survives, Bool.and_eq_true] at h
  rw [if_pos h.1]
  exact congrArg some (s.node.reread_eq h.2)

theorem survives_of_some {s : Json.Source} (hapart : s.namesApart = true)
    (h : (if s.readable then some s.reread else none) = some s.value) : s.survives = true := by
  split at h
  · next hreadable =>
    rw [Json.Source.survives, hreadable, Bool.true_and]
    exact s.node.faithful_of_reread hapart (Option.some.inj h)
  · cases h

/-- **When JSON is read back as what it says.**  Of a file with a JSON text, an object at the top and no character
escaped in two halves, it is known what is read, if anything; where the leaves of the text survive it is what the
text denotes, and where no object bears a name twice it is so only then.  A document of finite numbers, texts, lists
and mappings with texts as keys can be written exactly when its integers are short enough, and comes back from the
file that it is written into exactly when it survives. -/
theorem json_read_back (n : FileName) :
    (∀ (f : Folder) (octets : List UInt8) (s : Json.Source), f.read n = .ok octets → Utf8.decode octets = .ok s.chars →
      s.isStrict = true → s.isObject = true → s.node.all .unpaired = true →
        loaded? f n = (if s.readable then some s.reread else none)
          ∧ (s.survives = true → loaded? f n = some s.value)
          ∧ (s.namesApart = true → loaded? f n = some s.value → s.survives = true))
      ∧ ∀ d : Document, d.value.isMap = true → d.value.TextKeyed Scalar.IsFinite →
        ((∃ text, render .json d = .ok text) ↔ d.value.fits = true)
          ∧ ∀ (text : String) (f g : Folder), render .json d = .ok text → f.write n text = .ok g →
            (loaded? g n = some d.value ↔ d.value.survives = true) := by
  refine ⟨fun f octets s hread hdecode hstrict hobject hpairs => ?_, fun d hmap hkeyed => ⟨⟨?_, ?_⟩, ?_⟩⟩
  · have hloaded : loaded? f n = if s.readable then some s.reread else none := by
      rw [loaded?_of_read hread hdecode, toOption_ofText n hstrict hobject hpairs]
    rw [hloaded]
    exact ⟨rfl, some_of_survives, survives_of_some⟩
  · rintro ⟨text, htext⟩
    exact (survives_of_render hkeyed htext).1
  · exact fun hfits => exists_render (hkeyed.fits_iff.2 hfits)
  · intro text f g htext hwrite
    obtain ⟨-, s, hchars, hstrict, hvalue, hpairs, hapart, hsurvives⟩ := survives_of_render hkeyed htext
    have hobject : s.isObject = true := isObject_of_isMap (hvalue ▸ hmap)
    rw [loaded?_of_write hwrite, hchars, toOption_ofText n hstrict hobject hpairs, ← hsurvives, ← hvalue]
    exact ⟨survives_of_some hapart, some_of_survives⟩

/-- A text with a limit in it. -/
def limitSource (limit : Json.Number) : Json.Source :=
  ⟨[], .object (.last (lineBlanks 1) (spelled "limit") [] oneBlank (.number limit) (lineBlanks 0)), lineBlanks 0⟩

/-- A document with a limit in it. -/
def limitDocument (limit : Binary64) : Document := plain (.object [("limit", .scalar (.float limit))])

/-- The number `0.25`. -/
def quarter : Json.Number :=
  ⟨false, ⟨['0'], by decide, List.all_eq_true.1 rfl⟩, fun _ => rfl, some ⟨['2', '5'], by decide, List.all_eq_true.1 rfl⟩, none⟩

/-- The number `1e+16`. -/
def tenToSixteen : Json.Number :=
  ⟨false, ⟨['1'], by decide, List.all_eq_true.1 rfl⟩, fun h => by simp at h, none,
    some ⟨false, some false, ⟨['1', '6'], by decide, List.all_eq_true.1 rfl⟩⟩⟩

/-- The file in which the limits are kept. -/
def limitsFile : FileName := ⟨"", ["limits.json"]⟩

theorem textKeyed_limit {x : Binary64} (hx : x.isFinite = true) :
    (limitDocument x).value.TextKeyed Scalar.IsFinite :=
  Value.TextKeyed.single (.scalar hx)

theorem exists_write_limits (text : String) : ∃ g, Folder.write limitsFile text [] = .ok g := ⟨_, rfl⟩

/-- A quarter comes back, from its text and from its document. -/
theorem json_read_back_quarter :
    (∃ (f : Folder) (octets : List UInt8), f.read limitsFile = .ok octets
        ∧ Utf8.decode octets = .ok (limitSource quarter).chars ∧ (limitSource quarter).isStrict = true
        ∧ (limitSource quarter).isObject = true ∧ (limitSource quarter).node.all .unpaired = true
        ∧ (limitSource quarter).namesApart = true ∧ loaded? f limitsFile = some (limitSource quarter).value)
      ∧ ∃ (text : String) (f : Folder), (limitDocument quarter.nearest).value.isMap = true
        ∧ (limitDocument quarter.nearest).value.TextKeyed Scalar.IsFinite
        ∧ render .json (limitDocument quarter.nearest) = .ok text ∧ Folder.write limitsFile text [] = .ok f
        ∧ loaded? f limitsFile = some (limitDocument quarter.nearest).value := by
  obtain ⟨htexts, hdocuments⟩ := json_read_back limitsFile
  have hfinite : quarter.nearest.isFinite = true := by decide +kernel
  have hkeyed := textKeyed_limit hfinite
  obtain ⟨hrender, hback⟩ := hdocuments (limitDocument quarter.nearest) rfl hkeyed
  constructor
  · obtain ⟨f, hf⟩ := exists_write_limits (String.ofList (limitSource quarter).chars)
    have hread := Folder.read_of_write hf
    have hdecode : Utf8.decode (String.ofList (limitSource quarter).chars).toUTF8.data.toList
        = .ok (limitSource quarter).chars := by rw [Utf8.decode_toUTF8, String.toList_ofList]
    have hapart : (limitSource quarter).namesApart = true := by decide +kernel
    have hsurvives : (limitSource quarter).survives = true := by decide +kernel
    obtain ⟨-, hvalue, -⟩ := htexts f _ (limitSource quarter) hread hdecode rfl rfl rfl
    exact ⟨f, _, hread, hdecode, rfl, rfl, rfl, hapart, hvalue hsurvives⟩
  · have hfits : (limitDocument quarter.nearest).value.fits = true := by decide +kernel
    obtain ⟨text, htext⟩ := hrender.2 hfits
    obtain ⟨f, hf⟩ := exists_write_limits text
    have hsurvives : (limitDocument quarter.nearest).value.survives = true := by decide +kernel
    exact ⟨text, f, rfl, hkeyed, htext, hf, (hback text [] f htext hf).2 hsurvives⟩

/-- **A limit of ten to the sixteenth becomes a text.**  The document is written as `1e+16`, which says the number
in JSON and has no point. -/
theorem json_read_back_exponent :
    (limitDocument tenToSixteen.nearest).value.TextKeyed Scalar.IsFinite
      ∧ ∃ (text : String) (f : Folder), render .json (limitDocument tenToSixteen.nearest) = .ok text
        ∧ Json.Denotes text (limitDocument tenToSixteen.nearest).value
        ∧ Folder.write limitsFile text [] = .ok f
        ∧ loaded? f limitsFile = some (.object [("limit", .str "1e+16")])
        ∧ loaded? f limitsFile ≠ some (limitDocument tenToSixteen.nearest).value := by
  have hfinite : tenToSixteen.nearest.isFinite = true := by decide +kernel
  have hrender : (render .json (limitDocument tenToSixteen.nearest)).toOption
      = some (String.ofList (limitSource tenToSixteen).chars) := by decide +kernel
  have hreadable : (limitSource tenToSixteen).readable = true := by decide +kernel
  obtain ⟨f, hf⟩ := exists_write_limits (String.ofList (limitSource tenToSixteen).chars)
  have hloaded : loaded? f limitsFile = some (.object [("limit", .str "1e+16")]) := by
    rw [loaded?_of_write hf, String.toList_ofList, toOption_ofText limitsFile rfl rfl rfl, if_pos hreadable]
    rfl
  refine ⟨textKeyed_limit hfinite, _, f, ?_, ⟨limitSource tenToSixteen, rfl, String.toList_ofList, rfl⟩, hf, hloaded, ?_⟩
  · cases htext : render .json (limitDocument tenToSixteen.nearest) with
    | error f =>
      rw [htext] at hrender
      cases hrender
    | ok text =>
      rw [htext] at hrender
      exact congrArg Except.ok (Option.some.inj hrender)
  · rw [hloaded]
    simp [limitDocument, plain, Value.object]

end Document

end RouteDoc
