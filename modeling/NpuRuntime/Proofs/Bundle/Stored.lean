import NpuRuntime.Proofs.Bundle.Forms
import NpuRuntime.Proofs.Json.Printed

/-! # Stored documents
A document is loaded without loss, and stored so that it is loaded again as it is: both are first
seen of its sections, and then of the bytes. -/
namespace NpuRuntime.Bundle

open Json

/-- Where the members stand that a document names. -/
def documentLayout : Layout := .record Sections.shape Sections.inner

namespace Spec

/-- The sections of a document, which has a process and a root. -/
def sections (s : Spec) : Sections := ⟨some s.process, some s.root, s.hooks, s.linux, s.other⟩

theorem toJson_sections (s : Spec) : s.sections.toJson = s.toJson := by
  simp [sections, Sections.toJson, toJson, Json.optional]

/-- A document that is stored without loss, if it may be so deep. -/
def Fits (depth : Nat) (s : Spec) : Prop := Sections.form.Fits depth s.sections

end Spec

theorem Sections.eq_sections {c : Sections} {s : Spec} (h : c.complete = .ok s) :
    c = s.sections := by
  obtain ⟨process, root, hooks, linux, other⟩ := c
  cases process with
  | none => cases h
  | some process =>
    cases root with
    | none => cases h
    | some root =>
      cases h
      rfl

namespace Spec

theorem ofBytes_eq_ok {bytes : List UInt8} {s : Spec} : ofBytes bytes = .ok s ↔
    readDocument (Sections.form.codec.read maxDepth) bytes = .ok s.sections := by
  change _ ↔ readDocument (Sections.read maxDepth) bytes = _
  unfold ofBytes
  cases readDocument (Sections.read maxDepth) bytes with
  | error f => simp
  | ok c =>
    dsimp only
    rw [Except.ok.injEq]
    constructor
    · intro h
      cases hc : c.complete with
      | error e =>
        rw [hc] at h
        cases h
      | ok t =>
        rw [hc] at h
        cases h
        exact Sections.eq_sections hc
    · rintro rfl
      rfl

/-- What is loaded has all that the plain value has, and fits if all numbers are whole. -/
theorem exists_of_ofBytes {bytes : List UInt8} {s : Spec} (h : ofBytes bytes = .ok s) :
    ∃ v, Json.ofBytes bytes = .ok v ∧ Same documentLayout v s.toJson ∧
      (v.Whole → s.Fits maxDepth) := by
  obtain ⟨hread, ht⟩ := readDocument_eq_ok.mp (ofBytes_eq_ok.mp h)
  obtain ⟨v, hv, hsame, hfits⟩ := Sections.lawful.codec.reads hread
  refine ⟨v, readDocument_eq_ok.mpr ⟨hv, ht⟩, ?_, hfits⟩
  rw [← s.toJson_sections]
  exact hsame

theorem fits_toJson {s : Spec} (h : s.Fits maxDepth) : Json.Fits maxDepth s.toJson := by
  rw [← s.toJson_sections]
  exact Sections.lawful.prints h

theorem ofBytes_text {s : Spec} (h : s.Fits maxDepth) : ofBytes (Utf8.bytesOf s.text) = .ok s := by
  rw [ofBytes_eq_ok, readDocument_eq_ok, text, read_render (fits_toJson h), ← s.toJson_sections]
  exact ⟨Sections.lawful.restores h, rfl⟩

end Spec

/-- Nothing in a document is lost between loading and storing it. The plain value that is stored has
all members of the one that was loaded: those that have no name here are the same in the same order,
and of the others only optional ones that were null are left out. -/
theorem nothing_lost {bytes : List UInt8} {s : Spec} (h : Spec.ofBytes bytes = .ok s) :
    ∃ v, Json.ofBytes bytes = .ok v ∧ (v.Whole →
      ∃ w, Json.ofBytes (Utf8.bytesOf s.text) = .ok w ∧ Same documentLayout v w) := by
  obtain ⟨v, hv, hsame, hfits⟩ := Spec.exists_of_ofBytes h
  exact ⟨v, hv, fun hw => ⟨s.toJson, ofBytes_render (Spec.fits_toJson (hfits hw)), hsame⟩⟩

/-- A document with members of other names at every level, one of which comes twice, with numbers at
both ends of the range, and with a named member that is null. -/
def nested : List UInt8 := Utf8.bytesOf <|
  "\x7b\"z\":[1,null],\"linux\":\x7b\"seccomp\":[-9223372036854775808],\"devices\":null\x7d," ++
  "\"root\":\x7b\"readonly\":true,\"path\":\"\\u00e9\\n\"\x7d," ++
  "\"process\":\x7b\"cwd\":\"/\",\"args\":\x7b\x7d,\"cwd\":18446744073709551615\x7d\x7d"

theorem nothing_lost_nested : ∃ s v w, Spec.ofBytes nested = .ok s ∧
    Json.ofBytes nested = .ok v ∧ v.Whole ∧ Json.ofBytes (Utf8.bytesOf s.text) = .ok w ∧
    Same documentLayout v w := by
  have hloads : (Spec.ofBytes nested).isOk = true := by decide +kernel
  have hwhole : (Json.ofBytes nested).toOption.any (fun v => decide v.Whole) = true := by
    decide +kernel
  cases hs : Spec.ofBytes nested with
  | error f => simp [hs, Except.isOk, Except.toBool] at hloads
  | ok s =>
    obtain ⟨v, hv, hlost⟩ := nothing_lost hs
    rw [hv] at hwhole
    have hw : v.Whole := of_decide_eq_true hwhole
    obtain ⟨w, hstored, hsame⟩ := hlost hw
    exact ⟨s, v, w, rfl, hv, hw, hstored, hsame⟩

end NpuRuntime.Bundle
