import AppScaffold.Proofs.Disk.Growing
import Mathlib.Data.List.Flatten
import Mathlib.Tactic.Common

/-!
# Writing files

A file is written at the place that its path spells, in the place of an older file or at a free name.
What a piece of work keeps is told place by place: directories stay, and files stay where they are,
with the same content but for the places that are named.
-/

namespace AppScaffold

open Disk

/-- The octets of a file. -/
def Content.bytes : Content → List UInt8
  | .text s => s.toList.flatMap String.utf8EncodeChar
  | .octets bytes => bytes

namespace Volume

/-- The place that a path spells. -/
def place (v : Volume) (p : Path) : Location :=
  destination (if p.isAbsolute then [] else v.cwd) (Disk.steps p)

/-- Without links a path leads to the place that it spells. -/
theorem location_of_locate {v : Volume} (hv : v.disk.LinkFree) {p : Path} {follow : Bool}
    {place : Place} (h : v.disk.locate v.cwd follow p (Disk.steps p) = .ok place) :
    place.location = v.place p := by
  rw [locate] at h
  split at h
  · cases h
  · exact hv.location_eq h

/-- An entry that a path leads to stands at the place that the path spells. -/
theorem get?_of_find? {v : Volume} (hv : v.disk.LinkFree) {p : Path} {e : Entry}
    (h : v.find? p = .ok e) : v.disk.get? (v.place p) = some e := by
  rw [find?] at h
  split at h
  · rename_i loc hloc
    rw [← location_of_locate hv hloc]
    split at h
    · rename_i f hf
      cases h
      exact hf
    · cases h
  · cases h
  · cases h

/-- A path that leads to an entry exists. -/
theorem exists?_of_locate {v : Volume} {p : Path} {loc : Location} {e : Entry}
    (h : v.disk.locate v.cwd true p (Disk.steps p) = .ok (.found loc))
    (he : v.disk.get? loc = some e) : v.exists? p = true := by
  rw [exists?, find?, h]
  simp only [he]
  rfl

/-- What can be read stands in a file at the place that the path spells. -/
theorem get?_of_readText {v : Volume} (hv : v.disk.LinkFree) {p : Path} {s : String}
    (h : v.readText p = .ok s) : v.disk.get? (v.place p) = some (.file (.text s)) := by
  rw [readText] at h
  split at h
  · rename_i t ht
    cases h
    exact get?_of_find? hv ht
  · cases h
  · cases h
  · cases h

/-- Writing a file fails and changes nothing, or it sets the place that the path spells, where a file
was or nothing. -/
theorem writeFile_cases {v : Volume} (hv : v.disk.LinkFree) (p : Path) (s : String) :
    (∃ e, v.writeFile p s = (.error e, v)) ∨
      v.writeFile p s = (.ok (), v.set (v.place p) (.file (.text s))) ∧
        (v.disk.get? (v.place p) = none ∨
          (∃ c, v.disk.get? (v.place p) = some (.file c)) ∧
            v.disk.locate v.cwd true p (Disk.steps p) = .ok (.found (v.place p))) := by
  rw [writeFile]
  split_ifs
  · exact .inl ⟨_, rfl⟩
  · split
    · rename_i dir name hfree
      have hplace : dir ++ [name] = v.place p := location_of_locate hv hfree
      refine .inr ⟨by rw [hplace], .inl ?_⟩
      rw [← hplace]
      exact get?_of_locate_free hfree
    · exact .inl ⟨_, rfl⟩
    · rename_i loc hfound
      obtain rfl : loc = v.place p := location_of_locate hv hfound
      split
      · rename_i c hc
        exact .inr ⟨rfl, .inr ⟨⟨c, hc⟩, hfound⟩⟩
      · exact .inl ⟨_, rfl⟩
    · exact .inl ⟨_, rfl⟩

/-- A file can only be written below the root. -/
theorem place_ne_nil {v : Volume} {p : Path}
    (h : v.disk.get? (v.place p) = none ∨ (∃ c, v.disk.get? (v.place p) = some (.file c)) ∧
      v.disk.locate v.cwd true p (Disk.steps p) = .ok (.found (v.place p))) : v.place p ≠ [] := by
  intro hroot
  rw [hroot] at h
  rcases h with hnone | ⟨⟨c, hc⟩, -⟩
  · cases hnone
  · cases hc

/-- What has been written stands at the place that the path spells. -/
theorem get?_of_writeFile {v w : Volume} (hv : v.disk.LinkFree) {p : Path} {s : String}
    (h : v.writeFile p s = (.ok (), w)) :
    w.disk.get? (v.place p) = some (.file (.text s)) := by
  rcases writeFile_cases hv p s with ⟨e, hwrite⟩ | ⟨hwrite, hthere⟩
  · rw [hwrite] at h
    cases h
  · rw [hwrite] at h
    cases h
    rw [set, get?_set _ _ _ _ (place_ne_nil hthere), if_pos rfl]

/-- What a piece of work keeps: directories, the content of files at places that are not written, and
the octets of files, in order, at places that are not lost. -/
structure Kept (written lost : Location → Prop) (v w : Volume) : Prop where
  /-- No links come up. -/
  links : v.disk.LinkFree → w.disk.LinkFree
  /-- Relative paths start from the same directory. -/
  cwd : w.cwd = v.cwd
  /-- Directories stay. -/
  dirs : ∀ loc, v.disk.get? loc = some .dir → w.disk.get? loc = some .dir
  /-- Files in directories stay. -/
  files : ∀ loc c, v.disk.get? loc = some (.file c) → v.disk.Rooted loc →
    ∃ c', w.disk.get? loc = some (.file c') ∧ (¬written loc → c' = c) ∧
      (¬lost loc → c.bytes.Sublist c'.bytes)

/-- Adding entries keeps everything. -/
theorem Grown.kept {v w : Volume} (h : Grown v w) (written lost : Location → Prop) :
    Kept written lost v w where
  links := h.links
  cwd := h.cwd
  dirs loc hloc := h.within loc .dir hloc
  files loc c hc _ := ⟨c, h.within loc _ hc, fun _ => rfl, fun _ => .refl _⟩

/-- What is kept but for some places is kept but for more places. -/
theorem Kept.mono {written lost written' lost' : Location → Prop} {v w : Volume}
    (h : Kept written lost v w) (hwritten : ∀ loc, written loc → written' loc)
    (hlost : ∀ loc, lost loc → lost' loc) : Kept written' lost' v w where
  links := h.links
  cwd := h.cwd
  dirs := h.dirs
  files loc c hc hrooted := by
    obtain ⟨c', hc', hsame, hsub⟩ := h.files loc c hc hrooted
    exact ⟨c', hc', fun hno => hsame (mt (hwritten loc) hno), fun hno => hsub (mt (hlost loc) hno)⟩

/-- Two pieces of work keep what each of them keeps. -/
theorem Kept.trans {written lost written' lost' : Location → Prop} {u v w : Volume}
    (h : Kept written lost u v) (h' : Kept written' lost' v w) :
    Kept (fun loc => written loc ∨ written' loc) (fun loc => lost loc ∨ lost' loc) u w where
  links hu := h'.links (h.links hu)
  cwd := h'.cwd.trans h.cwd
  dirs loc hloc := h'.dirs loc (h.dirs loc hloc)
  files loc c hc hrooted := by
    obtain ⟨c', hc', hsame, hsub⟩ := h.files loc c hc hrooted
    have hrooted' : v.disk.Rooted loc := fun dir hdir hne => h.dirs dir (hrooted dir hdir hne)
    obtain ⟨c'', hc'', hsame', hsub'⟩ := h'.files loc c' hc' hrooted'
    refine ⟨c'', hc'', fun hno => ?_, fun hno => ?_⟩
    · rw [not_or] at hno
      rw [hsame' hno.2, hsame hno.1]
    · rw [not_or] at hno
      exact (hsub hno.1).trans (hsub' hno.2)

/-- A path that does not go up and leads to a file when entries have been added did so before, if the
file was there. -/
theorem Grown.locate_file {v u : Volume} (h : Grown v u) (hv : v.disk.LinkFree) {p : Path}
    (hup : .up ∉ Disk.steps p) {c : Content} (hfile : v.disk.get? (v.place p) = some (.file c))
    (hrooted : v.disk.Rooted (v.place p))
    (hfound : u.disk.locate u.cwd true p (Disk.steps p) = .ok (.found (v.place p))) :
    v.disk.locate v.cwd true p (Disk.steps p) = .ok (.found (v.place p)) := by
  rw [locate] at hfound ⊢
  split at hfound
  · cases hfound
  · rw [h.cwd] at hfound
    exact h.within.walk_file (h.links hv) hup hfile hrooted hfound

/-- Writing a file after entries have been added loses octets of a file only if they are not part of
the new text. -/
theorem writeFile_kept {v u : Volume} (h : Grown v u) (hv : v.disk.LinkFree) {p : Path} {s : String}
    {lost : Location → Prop}
    (hlost : ∀ c, v.disk.get? (v.place p) = some (.file c) → v.disk.Rooted (v.place p) →
      (∃ w, u.writeFile p s = (.ok (), w)) → ¬lost (v.place p) →
        c.bytes.Sublist (Content.text s).bytes) :
    Kept (· = v.place p) lost v (u.writeFile p s).2 := by
  have hu := h.links hv
  have hplace : u.place p = v.place p := by rw [place, place, h.cwd]
  rcases writeFile_cases hu p s with ⟨e, hwrite⟩ | ⟨hwrite, hthere⟩
  · rw [hwrite]
    exact h.kept _ _
  · have hne := place_ne_nil hthere
    rw [hplace] at hwrite hthere hne
    have hget := fun loc => get?_set u.disk (v.place p) loc (.file (.text s)) hne
    have hdone : ∃ w, u.writeFile p s = (.ok (), w) := ⟨_, hwrite⟩
    rw [hwrite]
    refine ⟨fun _ => hu.set hne nofun, h.cwd, fun loc hdir => ?_, fun loc c hc hrooted => ?_⟩
    · have hdir' := h.within loc _ hdir
      rw [set, hget, if_neg]
      · exact hdir'
      · rintro rfl
        rcases hthere with hnone | ⟨⟨c, hc⟩, -⟩
        · rw [hnone] at hdir'
          cases hdir'
        · rw [hc] at hdir'
          cases hdir'
    · by_cases hloc : loc = v.place p
      · subst hloc
        refine ⟨.text s, ?_, fun hno => absurd rfl hno, hlost c hc hrooted hdone⟩
        rw [set, hget, if_pos rfl]
      · refine ⟨c, ?_, fun _ => rfl, fun _ => .refl _⟩
        rw [set, hget, if_neg hloc]
        exact h.within loc _ hc

end Volume

end AppScaffold
