import GpuMarket.Lib.Text

namespace GpuMarket

open Lib

/-- Split `repo[:tag]` at the last colon after the last slash; `none` stands for a slice at an
offset that is no character boundary, which panics. -/
def splitImageTag (image : String) : Option (String × String) := do
  let text := image.toList
  let lastSegmentStart := ((rfind '/' text).map (· + 1)).getD 0
  let segment ← sliceFrom text lastSegmentStart
  match rfind ':' segment with
  | some rel =>
    let abs := lastSegmentStart + rel
    let repo ← sliceTo text abs
    let tag ← sliceFrom text (abs + 1)
    return (String.ofList repo, String.ofList tag)
  | none => return (image, "latest")

section Split

theorem lastSegmentStart_append {dir last : List Char} (hlast : '/' ∉ last)
    (hdir : dir = [] ∨ ∃ d, dir = d ++ ['/']) :
    ((rfind '/' (dir ++ last)).map (· + 1)).getD 0 = byteLen dir := by
  rcases hdir with rfl | ⟨d, rfl⟩
  · rw [List.nil_append, rfind_eq_none hlast]
    rfl
  · rw [List.append_assoc, List.singleton_append, rfind_append_cons d hlast, byteLen_append]
    rfl

theorem splitImageTag_of_tag {repo tag : String} (hslash : '/' ∉ tag.toList)
    (hcolon : ':' ∉ tag.toList) : splitImageTag (repo ++ ":" ++ tag) = some (repo, tag) := by
  obtain ⟨dir, last, hrepo, hlast, hdir⟩ := exists_last_segment '/' repo.toList
  have hsegment : '/' ∉ last ++ ':' :: tag.toList := by simp [hlast, hslash]
  have htext : (repo ++ ":" ++ tag).toList = dir ++ (last ++ ':' :: tag.toList) := by
    simp [hrepo]
  have habs : byteLen dir + byteLen last = byteLen (dir ++ last) := (byteLen_append dir last).symm
  have hto : sliceTo (dir ++ (last ++ ':' :: tag.toList)) (byteLen (dir ++ last)) =
      some repo.toList := by
    rw [← List.append_assoc, sliceTo_append, hrepo]
  have hfrom : sliceFrom (dir ++ (last ++ ':' :: tag.toList)) (byteLen (dir ++ last) + 1) =
      some tag.toList := by
    have hlen : byteLen (dir ++ last) + 1 = byteLen (dir ++ last ++ [':']) := by
      rw [byteLen_append (dir ++ last)]
      rfl
    rw [hlen, ← List.append_assoc, List.append_cons, sliceFrom_append]
  simp only [splitImageTag, htext, lastSegmentStart_append hsegment hdir, sliceFrom_append,
    Option.bind_eq_bind, Option.bind_some, rfind_append_cons last hcolon, habs, hto, hfrom,
    Option.pure_def, String.ofList_toList]

theorem splitImageTag_of_no_tag {image : String}
    (h : ∀ a b : List Char, image.toList = a ++ ':' :: b → '/' ∈ b) :
    splitImageTag image = some (image, "latest") := by
  obtain ⟨dir, last, himage, hlast, hdir⟩ := exists_last_segment '/' image.toList
  have hcolon : ':' ∉ last := by
    intro hmem
    obtain ⟨a, b, rfl⟩ := List.append_of_mem hmem
    have hb := h (dir ++ a) b (by rw [himage, List.append_assoc])
    exact hlast (List.mem_append_right a (List.mem_cons_of_mem ':' hb))
  simp only [splitImageTag, himage, lastSegmentStart_append hlast hdir, sliceFrom_append,
    Option.bind_eq_bind, Option.bind_some, rfind_eq_none hcolon, Option.pure_def]

theorem splitImageTag_spec (image : String) :
    (∃ repo tag, image = repo ++ ":" ++ tag ∧ '/' ∉ tag.toList ∧ ':' ∉ tag.toList ∧
        splitImageTag image = some (repo, tag)) ∨
      (∀ a b : List Char, image.toList = a ++ ':' :: b → '/' ∈ b) ∧
        splitImageTag image = some (image, "latest") := by
  by_cases h : ∀ a b : List Char, image.toList = a ++ ':' :: b → '/' ∈ b
  · exact .inr ⟨h, splitImageTag_of_no_tag h⟩
  · simp only [not_forall, exists_prop] at h
    obtain ⟨a, b, himage, hb⟩ := h
    -- further colons may follow: the tag starts after the last of them
    obtain ⟨dir, tag, rfl, hcolon, hdir⟩ := exists_last_segment ':' b
    have hslash : '/' ∉ tag := fun hmem => hb (List.mem_append_right dir hmem)
    obtain ⟨repo, hrepo⟩ : ∃ repo, a ++ ':' :: (dir ++ tag) = repo ++ ':' :: tag := by
      rcases hdir with rfl | ⟨d, rfl⟩
      · exact ⟨a, rfl⟩
      · exact ⟨a ++ ':' :: d, by simp⟩
    have heq : image = String.ofList repo ++ ":" ++ String.ofList tag := by
      rw [← String.toList_inj, himage, hrepo]
      simp
    have hsplit : splitImageTag image = some (String.ofList repo, String.ofList tag) := by
      rw [heq]
      exact splitImageTag_of_tag (by simpa using hslash) (by simpa using hcolon)
    exact .inl ⟨String.ofList repo, String.ofList tag, heq, by simpa using hslash,
      by simpa using hcolon, hsplit⟩

/-- No text that a tenant sends makes a slice panic. -/
theorem splitImageTag_isSome (image : String) : (splitImageTag image).isSome = true := by
  rcases splitImageTag_spec image with ⟨repo, tag, -, -, -, hsplit⟩ | ⟨-, hsplit⟩ <;> simp [hsplit]

end Split

def Plain (s : String) : Prop := '/' ∉ s.toList ∧ ':' ∉ s.toList ∧ '@' ∉ s.toList

instance : DecidablePred Plain := fun s =>
  inferInstanceAs (Decidable ('/' ∉ s.toList ∧ ':' ∉ s.toList ∧ '@' ∉ s.toList))

structure Registry where
  host : String
  port : Option String
  host_plain : '/' ∉ host.toList ∧ '@' ∉ host.toList
  port_plain : ∀ p ∈ port, '/' ∉ p.toList ∧ '@' ∉ p.toList

def Registry.text (reg : Registry) : String :=
  match reg.port with
  | some port => reg.host ++ ":" ++ port
  | none => reg.host

structure ImageName where
  registry : Option Registry
  path : List String
  path_ne_nil : path ≠ []
  path_plain : ∀ c ∈ path, Plain c

namespace ImageName

def pathText (n : ImageName) : String := "/".intercalate n.path

def text (n : ImageName) : String :=
  match n.registry with
  | some reg => reg.text ++ "/" ++ n.pathText
  | none => n.pathText

end ImageName

inductive Suffix
  | bare
  | tag (t : String) (plain : Plain t)
  | digest (algo hex : String) (algo_plain : Plain algo) (hex_plain : Plain hex)

structure Reference where
  name : ImageName
  suffix : Suffix

namespace Reference

def text (r : Reference) : String :=
  match r.suffix with
  | .bare => r.name.text
  | .tag t _ => r.name.text ++ ":" ++ t
  | .digest algo hex _ _ => r.name.text ++ "@" ++ algo ++ ":" ++ hex

/-- The pair stands for the same image: a registry stays whole, a bare name gets `latest`, a tag is
kept, and a digest is left out or kept whole. -/
def Denotes (r : Reference) (fromImage tag : String) : Prop :=
  (∀ reg ∈ r.name.registry, ∃ path, fromImage = reg.text ++ "/" ++ path) ∧
  match r.suffix with
  | .bare => fromImage = r.name.text ∧ tag = "latest"
  | .tag t _ => fromImage = r.name.text ∧ tag = t
  | .digest .. => (∃ n : ImageName, fromImage = n.text) ∨ fromImage = r.text

def Faithful (r : Reference) : Prop :=
  ∃ fromImage tag, splitImageTag r.text = some (fromImage, tag) ∧ r.Denotes fromImage tag

def HasDigest (r : Reference) : Prop := ∃ algo hex ha hh, r.suffix = .digest algo hex ha hh

end Reference

section References

theorem ImageName.notMem_pathText (n : ImageName) {c : Char} (hslash : c ≠ '/')
    (h : ∀ s ∈ n.path, c ∉ s.toList) : c ∉ n.pathText.toList := by
  rw [pathText, String.toList_intercalate]
  refine notMem_intercalate (by simpa using hslash) fun l hl => ?_
  obtain ⟨s, hs, rfl⟩ := List.mem_map.mp hl
  exact h s hs

theorem Registry.at_notMem_text (reg : Registry) : '@' ∉ reg.text.toList := by
  rw [text]
  cases hport : reg.port with
  | some port => simp [reg.host_plain.2, (reg.port_plain port hport).2]
  | none => exact reg.host_plain.2

theorem ImageName.at_notMem_text (n : ImageName) : '@' ∉ n.text.toList := by
  have hpath : '@' ∉ n.pathText.toList :=
    n.notMem_pathText (by decide) fun s hs => (n.path_plain s hs).2.2
  rw [text]
  cases n.registry with
  | some reg => simp [reg.at_notMem_text, hpath]
  | none => exact hpath

theorem ImageName.slash_mem_of_colon (n : ImageName) (a b : List Char)
    (h : n.text.toList = a ++ ':' :: b) : '/' ∈ b := by
  have hpath : ':' ∉ n.pathText.toList :=
    n.notMem_pathText (by decide) fun s hs => (n.path_plain s hs).2.1
  rw [text] at h
  cases hreg : n.registry with
  | some reg =>
    have hcut : a ++ ':' :: b = reg.text.toList ++ '/' :: n.pathText.toList := by
      rw [← h, hreg]
      simp
    exact mem_of_append_cons_eq hcut (by decide) hpath
  | none =>
    rw [hreg] at h
    exact absurd (h ▸ List.mem_append_right a List.mem_cons_self) hpath

theorem ImageName.text_of_registry {n : ImageName} {reg : Registry} (h : reg ∈ n.registry) :
    ∃ path, n.text = reg.text ++ "/" ++ path := by
  refine ⟨n.pathText, ?_⟩
  rw [text, Option.mem_def.mp h]

namespace Reference

theorem text_of_digest {r : Reference} {algo hex : String} {ha : Plain algo} {hh : Plain hex}
    (h : r.suffix = .digest algo hex ha hh) :
    r.text = r.name.text ++ "@" ++ algo ++ ":" ++ hex := by
  rw [text, h]

theorem splitImageTag_of_digest {r : Reference} {algo hex : String} {ha : Plain algo}
    {hh : Plain hex} (h : r.suffix = .digest algo hex ha hh) :
    splitImageTag r.text = some (r.name.text ++ "@" ++ algo, hex) := by
  rw [text_of_digest h]
  exact splitImageTag_of_tag hh.1 hh.2.1

theorem not_faithful_of_digest {r : Reference} {algo hex : String} {ha : Plain algo}
    {hh : Plain hex} (h : r.suffix = .digest algo hex ha hh) : ¬r.Faithful := by
  rintro ⟨fromImage, tag, hsplit, -, hdenotes⟩
  rw [splitImageTag_of_digest h] at hsplit
  obtain ⟨rfl, rfl⟩ := Prod.mk.inj (Option.some.inj hsplit)
  rw [h] at hdenotes
  rcases hdenotes with ⟨n, hn⟩ | hwhole
  · refine n.at_notMem_text (hn ▸ ?_)
    simp
  · have hlen := congrArg (fun s : String => s.toList.length) hwhole
    simp [text_of_digest h] at hlen

theorem faithful_of_bare {r : Reference} (h : r.suffix = .bare) : r.Faithful := by
  have htext : r.text = r.name.text := by rw [text, h]
  have hsplit : splitImageTag r.text = some (r.name.text, "latest") := by
    rw [htext]
    exact splitImageTag_of_no_tag r.name.slash_mem_of_colon
  refine ⟨r.name.text, "latest", hsplit, fun _ => ImageName.text_of_registry, ?_⟩
  rw [h]
  exact ⟨rfl, rfl⟩

theorem faithful_of_tag {r : Reference} {t : String} {plain : Plain t}
    (h : r.suffix = .tag t plain) : r.Faithful := by
  have htext : r.text = r.name.text ++ ":" ++ t := by rw [text, h]
  have hsplit : splitImageTag r.text = some (r.name.text, t) := by
    rw [htext]
    exact splitImageTag_of_tag plain.1 plain.2.1
  refine ⟨r.name.text, t, hsplit, fun _ => ImageName.text_of_registry, ?_⟩
  rw [h]
  exact ⟨rfl, rfl⟩

/-- A reference is split faithfully if and only if it has no digest. -/
theorem faithful_iff (r : Reference) : r.Faithful ↔ ¬r.HasDigest := by
  constructor
  · rintro hfaithful ⟨algo, hex, ha, hh, hsuffix⟩
    exact not_faithful_of_digest hsuffix hfaithful
  · intro hnot
    cases hsuffix : r.suffix with
    | bare => exact faithful_of_bare hsuffix
    | tag t plain => exact faithful_of_tag hsuffix
    | digest algo hex ha hh => exact absurd ⟨algo, hex, ha, hh, hsuffix⟩ hnot

def cudaByDigest : Reference where
  name :=
    { registry := none
      path := ["nvidia", "cuda"]
      path_ne_nil := List.cons_ne_nil _ _
      path_plain := by decide +kernel }
  suffix :=
    .digest "sha256" "e3b0c44298fc1c149afbf4c8996fb92427ae41e4649b934ca495991b7852b855"
      (by decide +kernel) (by decide +kernel)

theorem splitImageTag_cudaByDigest :
    cudaByDigest.text = "nvidia/cuda@sha256:" ++
        "e3b0c44298fc1c149afbf4c8996fb92427ae41e4649b934ca495991b7852b855" ∧
      splitImageTag cudaByDigest.text = some ("nvidia/cuda@sha256",
        "e3b0c44298fc1c149afbf4c8996fb92427ae41e4649b934ca495991b7852b855") ∧
      ¬cudaByDigest.Faithful := by
  refine ⟨by decide +kernel, ?_, not_faithful_of_digest rfl⟩
  rw [splitImageTag_of_digest rfl]
  decide +kernel

end Reference

end References

end GpuMarket
