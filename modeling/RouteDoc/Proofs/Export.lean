import RouteDoc.Proofs.DocumentShape
import RouteDoc.Proofs.Finalization

/-!
# Exported documents

The JSON of a document that calls alone have made.  Such a document is keyed by texts, so its text is JSON and says
it in full as long as the numbers among its defaults and enumeration members fit: floats have to be finite, and
integers short enough to be written.  A float that is not finite is written by a word that JSON does not have.

* `Documentation.finalize_of_paths`, `Documentation.exists_paths` — finalizing such a document gives it;
* `Documentation.exported_text_denotes` — the text of the document, and what it denotes;
* `Documentation.exported_text_with_nan` — a default that makes it no JSON.
-/

namespace RouteDoc

open Value

namespace Documentation

variable {d : Documentation}

theorem regular_of_isOverride_eq_false (p : Scalar → Prop) {c : Call} (h : c.isOverride = false) : c.Regular p := by
  cases c with
  | mergeInto override => cases h
  | mergeRoute path override => cases h
  | _ => trivial

/-- Where the paths are a mapping, finalizing gives the document. -/
theorem finalize_of_paths {paths : Entries} (h : d.document.get? "paths" = some (.map paths)) :
    (run finalize d).1 = .ok d.document := by
  cases hd : d.finalized with
  | true => rw [run_finalize_of_finalized hd]
  | false =>
    have hlength : hasLength d.countedPaths = true := by rw [countedPaths, h]; rfl
    rw [run_finalize_of_open hd, if_pos hlength]

/-- After calls without overrides the paths are a mapping. -/
theorem exists_paths (s : Settings) {calls : List Call} (hcalls : ∀ c ∈ calls, c.isOverride = false) :
    ∃ paths, ((new s).afterCalls calls).document.get? "paths" = some (.map paths) := by
  obtain ⟨es, hes, hhas⟩ := hasPaths_afterCalls (hasPaths_new s) calls
  obtain ⟨v, hv⟩ := Option.isSome_iff_exists.1 hhas
  have hat : ((new s).afterCalls calls).document.at? [.str "paths"] = some v := by
    rw [hes]
    simp [hv]
  have hmap : v.isMap = true := by
    have habove := mapsAbove_afterCalls s hcalls
    exact habove [.str "paths"] (operationPath "" "") (.inr ⟨_, _, rfl⟩) ⟨_, rfl⟩ (by simp [operationPath]) v hat
  cases v with
  | map paths => exact ⟨paths, by rw [hes]; exact hv⟩
  | _ => cases hmap

/-- A document that calls alone have made is keyed by texts. -/
theorem textKeyed_afterCalls (s : Settings) {calls : List Call} (hcalls : ∀ c ∈ calls, c.isOverride = false) :
    ((new s).afterCalls calls).document.TextKeyed Scalar.IsJson :=
  (regular_afterCalls (fun _ h => h) (regular_new (fun _ h => h) s) fun c hc =>
    regular_of_isOverride_eq_false _ (hcalls c hc)).textKeyed

/-- **What is exported is JSON that says the document, when its numbers fit.**  Let a documentation be made by calls
alone, without overrides.  Then finalizing gives its document.  When every float in the document is finite and every
integer short enough, the document can be written; and whatever is written for it is JSON and denotes the document,
so that a strict reader reads the document back, exactly when all numbers in it fit.  Otherwise the text is no JSON, and
a strict reader refuses it. -/
theorem exported_text_denotes (s : Settings) (calls : List Call) (hcalls : ∀ c ∈ calls, c.isOverride = false) :
    let d := (new s).afterCalls calls
    (run finalize d).1 = .ok d.document ∧
      (d.document.fits = true → ∃ text, Json.render d.document = .ok text) ∧
      ∀ text, Json.render d.document = .ok text →
        (Json.Denotes text d.document ↔ d.document.fits = true) ∧
          Json.read? text = if d.document.fits then some d.document else none := by
  intro d
  have hkeyed : d.document.TextKeyed Scalar.IsJson := textKeyed_afterCalls s hcalls
  obtain ⟨paths, hpaths⟩ := exists_paths s hcalls
  refine ⟨finalize_of_paths hpaths, fun hfits => ?_, fun text htext => ?_⟩
  · exact Json.exists_render (hkeyed.fits_iff.2 hfits)
  · exact Json.denotes_iff hkeyed htext

/-- A route that takes a ratio, with a default. -/
def ratioRoute (default : Binary64) : Route :=
  ⟨"/data", "GET", [], [⟨"ratio", .builtin .float, false, true, .float default⟩], [], [], [], []⟩

/-- The run that documents such a route, and finalizes. -/
def ratioCalls (default : Binary64) : List Call :=
  [.register ⟨[], 2024, 0⟩ (ratioRoute default), .finalize]

/-- With a quarter as the default the text is JSON. -/
theorem exported_text_denotes_quarter :
    (∀ c ∈ ratioCalls (.finite false 1021 0), c.isOverride = false) ∧
      ∃ text, Json.render ((new default).afterCalls (ratioCalls (.finite false 1021 0))).document = .ok text ∧
        Json.Denotes text ((new default).afterCalls (ratioCalls (.finite false 1021 0))).document ∧
        Json.read? text = some ((new default).afterCalls (ratioCalls (.finite false 1021 0))).document := by
  have hcalls : ∀ c ∈ ratioCalls (.finite false 1021 0), c.isOverride = false := by decide +kernel
  have hfits : ((new default).afterCalls (ratioCalls (.finite false 1021 0))).document.fits = true := by
    decide +kernel
  obtain ⟨-, hrender, hdenotes⟩ := exported_text_denotes default (ratioCalls (.finite false 1021 0)) hcalls
  obtain ⟨text, htext⟩ := hrender hfits
  obtain ⟨hiff, hread⟩ := hdenotes text htext
  exact ⟨hcalls, text, htext, hiff.2 hfits, by rw [hread, if_pos hfits]⟩

/-- **A default that is no number is written as what is no JSON.**  The route is documented without failure and
finalizing gives the document, and its text, with the word for no number in it, is JSON of no value. -/
theorem exported_text_with_nan :
    OrderlyRun (new default) (ratioCalls (.nan true)) ∧
      ∃ text, Json.render ((new default).afterCalls (ratioCalls (.nan true))).document = .ok text ∧
        Json.read? text = none ∧ ∀ v, ¬ Json.Denotes text v := by
  have hrun : OrderlyRun (new default) (ratioCalls (.nan true)) := by
    refine ⟨?_, trivial, trivial⟩
    show Call.failure? _ _ = none
    decide +kernel
  have hcalls : ∀ c ∈ ratioCalls (.nan true), c.isOverride = false := by decide +kernel
  have hkeyed := textKeyed_afterCalls default hcalls
  have hfits : ((new default).afterCalls (ratioCalls (.nan true))).document.fits = false := by decide +kernel
  have hrender : (Json.render ((new default).afterCalls (ratioCalls (.nan true))).document).toBool = true := by
    decide +kernel
  cases htext : Json.render ((new default).afterCalls (ratioCalls (.nan true))).document with
  | error f =>
    rw [htext] at hrender
    cases hrender
  | ok text =>
    have hread : Json.read? text = none := by
      rw [(Json.denotes_iff hkeyed htext).2, hfits]
      rfl
    refine ⟨hrun, text, rfl, hread, fun v hv => ?_⟩
    rw [hv.read?] at hread
    cases hread

end Documentation

end RouteDoc
