import AppScaffold.Proofs.Dialogue.ArtifactFields
import Mathlib.Data.List.Basic
import Mathlib.Data.List.Nodup
import Mathlib.Tactic.Common

/-!
# Menus that are answered with the text of an entry

Whoever selects an entry of a menu answers with the text of the entry, and the machine looks for the
entry again: the first one that is the same as the answer, up to the blanks around the answer and the
case of its letters. So an entry is selected by its own text exactly if there are no blanks around it
and nothing above it is the same up to the case of the letters.
-/

namespace AppScaffold

namespace Text

/-- Characters that are the same without the blanks at both ends are a part of the whole. -/
theorem isInfix_trimChars (cs : List Char) : trimChars cs <:+: cs := by
  have hback : trimEnd (cs.dropWhile isBlank) <+: cs.dropWhile isBlank := by
    rw [← List.reverse_suffix, trimEnd, List.reverse_reverse]
    exact List.dropWhile_suffix isBlank
  exact hback.isInfix.trans (List.dropWhile_suffix isBlank).isInfix

/-- A text is the same up to case as what is left without the blanks at both ends only if there are no
such blanks. -/
theorem sameUpToCase_trim_iff {s : String} : sameUpToCase s (trim s) = true ↔ trim s = s := by
  refine ⟨fun h => ?_, fun h => h.symm ▸ sameUpToCase_refl s⟩
  have hmap : s.toList.map Char.toLower = (trimChars s.toList).map Char.toLower := by
    simpa [sameUpToCase, trim] using h
  have hlength : (trimChars s.toList).length = s.toList.length := by
    simpa using (congrArg List.length hmap).symm
  rw [trim, (isInfix_trimChars s.toList).sublist.eq_of_length hlength, String.ofList_toList]

end Text

/-- A child of a directory is kept at the location of the directory with its name behind it. -/
theorem Disk.eq_of_child {loc : Location} {e : Location × Entry} {child : String × Entry}
    (h : (match e.1.getLast? with
      | some name => if e.1.dropLast = loc then some (name, e.2) else none
      | none => none) = some child) : e = (loc ++ [child.1], child.2) := by
  obtain ⟨place, entry⟩ := e
  dsimp only at h
  split at h
  · next last hlast =>
    split_ifs at h with hdir
    cases h
    rw [← hdir, List.dropLast_append_getLast? _ hlast]
  · cases h

/-- Each directory in a directory is listed once. -/
theorem Disk.IsProper.nodup_directoriesIn {v : Volume} (h : v.disk.IsProper) (p : Path) :
    (v.directoriesIn p).Nodup := by
  have hentries : v.disk.entries.Pairwise fun a b => a.1 ≠ b.1 := List.pairwise_map.mp h.distinct
  unfold Volume.directoriesIn
  split
  · next loc _ =>
    split
    · have hchildren : (v.disk.children loc).Pairwise fun a b => a.1 ≠ b.1 := by
        refine List.Pairwise.filterMap _ (fun a b hne x hx y hy heq => hne ?_) hentries
        rw [Disk.eq_of_child hx, Disk.eq_of_child hy, heq]
      rw [(List.mergeSort_perm _ _).nodup_iff]
      refine List.Pairwise.filterMap _ (fun a b hne x hx y hy heq => hne ?_) hchildren
      have hx : a.1 = x := Option.some.inj (Option.ite_none_right_eq_some.mp hx).2
      have hy : b.1 = y := Option.some.inj (Option.ite_none_right_eq_some.mp hy).2
      rw [hx, hy, heq]
    · exact List.nodup_nil
  · exact List.nodup_nil

namespace Answer

/-- The entry at a place of a menu is reached by its own text: there are no blanks around it, and no
entry above it is the same up to the case of letters. -/
def Reaches (choices : List String) (i : ℕ) (c : String) : Prop :=
  Text.trim c = c ∧ ∀ above ∈ choices.take i, Text.sameUpToCase above c = false

variable {raw c : String} {choices : List String} {i : ℕ}

/-- An answer selects the first entry that is the same up to the case of letters and the blanks around
the answer. -/
theorem choice_eq_ok_iff (h : choices[i]? = some c) :
    choice raw choices = .ok i ↔
      Text.sameUpToCase c (Text.trim raw) = true ∧
        ∀ above ∈ choices.take i, Text.sameUpToCase above (Text.trim raw) = false := by
  obtain ⟨hi, hc⟩ := List.getElem?_eq_some_iff.mp h
  have hfind : choice raw choices = .ok i ↔
      choices.findIdx? (fun c => Text.sameUpToCase c (Text.trim raw)) = some i := by
    unfold choice
    split
    · next j hj => rw [hj, Except.ok.injEq, Option.some.injEq]
    · next hnone => simp [hnone]
  rw [hfind, List.findIdx?_eq_some_iff_getElem]
  constructor
  · rintro ⟨_, hsame, hfirst⟩
    refine ⟨hc ▸ hsame, fun above habove => ?_⟩
    obtain ⟨j, hj, rfl⟩ := List.mem_take_iff_getElem.mp habove
    exact Bool.eq_false_iff.mpr (hfirst j (Nat.lt_min.mp hj).1)
  · rintro ⟨hsame, hfirst⟩
    refine ⟨hi, hc.symm ▸ hsame, fun j hj => ?_⟩
    have habove : choices[j] ∈ choices.take i :=
      List.mem_take_iff_getElem.mpr ⟨j, Nat.lt_min.mpr ⟨hj, hj.trans hi⟩, rfl⟩
    exact Bool.eq_false_iff.mp (hfirst _ habove)

/-- An entry is selected by its own text exactly if its text reaches it. -/
theorem choice_self_iff (h : choices[i]? = some c) : choice c choices = .ok i ↔ Reaches choices i c := by
  rw [choice_eq_ok_iff h, Text.sameUpToCase_trim_iff]
  unfold Reaches
  constructor
  · rintro ⟨htrim, habove⟩
    rw [htrim] at habove
    exact ⟨htrim, habove⟩
  · rintro ⟨htrim, habove⟩
    rw [htrim]
    exact ⟨rfl, habove⟩

/-- The text of an entry selects another entry or is refused exactly if it does not reach its own. -/
theorem choice_self_of_not (h : choices[i]? = some c) (hnot : ¬Reaches choices i c) :
    (∃ j ≠ i, choice c choices = .ok j) ∨ choice c choices = .error (.offMenu choices) := by
  have hne : choice c choices ≠ .ok i := fun hi => hnot ((choice_self_iff h).mp hi)
  unfold choice at hne ⊢
  split
  · next j hj =>
    rw [hj] at hne
    exact .inl ⟨j, fun hji => hne (congrArg _ hji), rfl⟩
  · exact .inr rfl

end Answer

section Selecting

variable {absent : Question → String} {name c method : String} {choices : List String} {r : Request}

/-- One answer to the question about the registry finds out a request exactly if it is an entry of the
menu; the first entry stands for the main stack. -/
theorem ScreenMachine.result_eq_ok_iff :
    (screenMachine.drive absent (.ofState name ⟨choices, none⟩) [c]).result = .ok r ↔
      ∃ i, Answer.choice c choices = .ok i ∧
        r = if i = 0 then .screen name else .loginScreen name := by
  have hdialogue : screenMachine.drive absent (.ofState name ⟨choices, none⟩) [c] =
      (screenDialogue name ⟨choices, none⟩).drive absent [c] :=
    (realizes name ⟨choices, none⟩).drive_eq rfl
  rw [hdialogue]
  cases hchoice : Answer.choice c choices with
  | error objection =>
    simp [Dialogue.drive, Dialogue.driveFrom, screenDialogue, ScreenDialogue.question,
      Dialogue.answer, ScreenDialogue.respond, hchoice, Transcript.reject, Dialogue.attemptLimit]
  | ok i =>
    by_cases hi : i = 0 <;>
      simp [Dialogue.drive, Dialogue.driveFrom, screenDialogue, ScreenDialogue.question,
        Dialogue.answer, ScreenDialogue.respond, hchoice, Transcript.ask, Dialogue.finish, hi,
        Request.screen, Request.loginScreen, eq_comm]

/-- An answer to the question about the screen and one to that about the method find out a request
exactly if both are entries of the menus. -/
theorem NetworkMachine.result_eq_ok_iff :
    (networkMachine.drive absent (.ofState name [] (.screen choices)) [c, method]).result = .ok r ↔
      ∃ i screen selection, Answer.choice c choices = .ok i ∧ choices[i]? = some screen ∧
        MethodSelection.ofText? method = some selection ∧
        NetworkDialogue.request? name (.done (some screen) selection) = some r := by
  have hdialogue : networkMachine.drive absent (.ofState name [] (.screen choices)) [c, method] =
      (networkDialogue name (.screen choices)).drive absent [c, method] :=
    (realizes name (.screen choices)).drive_eq ⟨[], rfl⟩
  rw [hdialogue]
  cases hchoice : Answer.choice c choices with
  | error objection =>
    cases hmethod : Answer.choice method choices <;>
      simp [Dialogue.drive, Dialogue.driveFrom, networkDialogue, NetworkDialogue.question,
        Dialogue.answer, NetworkDialogue.respond, hchoice, hmethod, Transcript.ask, Transcript.reject,
        Dialogue.attemptLimit]
  | ok i =>
    obtain ⟨screen, hscreen⟩ := exists_of_choice hchoice
    cases hmethod : MethodSelection.ofText? method with
    | none =>
      simp [Dialogue.drive, Dialogue.driveFrom, networkDialogue, NetworkDialogue.question,
        Dialogue.answer, NetworkDialogue.respond, hchoice, hmethod, Transcript.ask,
        Transcript.reject, Dialogue.attemptLimit]
    | some selection =>
      simp [Dialogue.drive, Dialogue.driveFrom, networkDialogue, NetworkDialogue.question,
        Dialogue.answer, NetworkDialogue.respond, hchoice, hmethod, hscreen, Transcript.ask,
        Dialogue.finish, NetworkDialogue.request?]

/-- Behind an entry of the menu of screens, the menu of methods is shown. -/
theorem NetworkMachine.asked_of_choice {i : ℕ} (h : Answer.choice c choices = .ok i)
    (hmethod : MethodSelection.ofText? method ≠ none) :
    (networkMachine.drive absent (.ofState name [] (.screen choices)) [c, method]).asked.map
      Question.kind = [.choice choices, .choice MethodSelection.choices] := by
  have hdialogue : networkMachine.drive absent (.ofState name [] (.screen choices)) [c, method] =
      (networkDialogue name (.screen choices)).drive absent [c, method] :=
    (realizes name (.screen choices)).drive_eq ⟨[], rfl⟩
  obtain ⟨selection, hselection⟩ := Option.ne_none_iff_exists'.mp hmethod
  rw [hdialogue]
  simp [Dialogue.drive, Dialogue.driveFrom, networkDialogue, NetworkDialogue.question,
    Dialogue.answer, NetworkDialogue.respond, h, hselection, Transcript.ask]

/-- The entries of the menu of methods are read as what they say. -/
theorem MethodSelection.exists_of_mem_choices (h : method ∈ MethodSelection.choices) :
    ∃ selection, MethodSelection.ofText? method = some selection ∧ selection.text = method := by
  revert method
  decide

end Selecting

/-- In the menus for screens and for the functions of a screen, an entry that is selected is the one
that is taken exactly if its text reaches it. Then the request is for the registry at that place, or it
carries the screen; every entry of the menu of methods is taken as it is. -/
theorem menus_reach_iff (name : String) (layout : Layout) (v : Volume) (root : Path)
    (hdisk : v.disk.IsProper) (absent : Question → String) :
    (∀ q, (ScreenMachine.new name layout v root).question = some q →
      ∃ choices, q.kind = .choice choices ∧
        choices = [ScreenDialogue.label layout.screenRegistry,
          ScreenDialogue.label layout.loginRegistry] ∧
        ∀ i c, choices[i]? = some c →
          ((screenMachine.drive absent (.new name layout v root) [c]).result =
              .ok (if i = 0 then .screen name else .loginScreen name) ↔
            Answer.Reaches choices i c)) ∧
    ∀ m, NetworkMachine.forScreen name layout v root = .ok m →
      ∃ q choices, m.question = some q ∧ q.kind = .choice choices ∧
        choices = layout.existingScreens v root ∧
        ∀ i c, choices[i]? = some c → ∀ method ∈ MethodSelection.choices,
          ((networkMachine.drive absent m [c, method]).result =
              .ok ⟨.screenApi, .ofList
                [("name", .text name), ("method", .text method), ("screen", .text c)]⟩ ↔
            Answer.Reaches choices i c) ∧
          (Answer.Reaches choices i c →
            (networkMachine.drive absent m [c, method]).asked.map Question.kind =
              [.choice choices, .choice MethodSelection.choices]) := by
  constructor
  · intro q hq
    unfold ScreenMachine.new at hq ⊢
    split_ifs at hq ⊢
    · obtain rfl := Option.some.inj hq
      refine ⟨_, rfl, rfl, fun i c hc => ?_⟩
      rw [← Answer.choice_self_iff hc]
      refine ScreenMachine.result_eq_ok_iff.trans
        ⟨fun ⟨j, hj, hrequest⟩ => ?_, fun hi => ⟨i, hi, rfl⟩⟩
      obtain ⟨d, hd⟩ := NetworkMachine.exists_of_choice hj
      have hi2 : i < 2 := (List.getElem?_eq_some_iff.mp hc).1
      have hj2 : j < 2 := (List.getElem?_eq_some_iff.mp hd).1
      have hzero : i = 0 ↔ j = 0 := by
        by_cases hi : i = 0 <;> by_cases hj : j = 0 <;>
          simp [hi, hj, Request.screen, Request.loginScreen] at hrequest ⊢
      have hij : i = j := by omega
      rwa [hij]
    · simp [ScreenMachine.question] at hq
  · intro m hm
    obtain ⟨-, rfl⟩ := NetworkMachine.forScreen_eq_ok hm
    have hnodup : (layout.existingScreens v root).Nodup := hdisk.nodup_directoriesIn _
    refine ⟨_, _, rfl, rfl, rfl, fun i c hc method hmethod => ?_⟩
    obtain ⟨selection, hselection, htext⟩ := MethodSelection.exists_of_mem_choices hmethod
    refine ⟨?_, fun hreaches => NetworkMachine.asked_of_choice ((Answer.choice_self_iff hc).mpr hreaches)
      (by simp [hselection])⟩
    rw [NetworkMachine.result_eq_ok_iff, ← Answer.choice_self_iff hc]
    constructor
    · rintro ⟨j, screen, other, hj, hscreen, -, hrequest⟩
      have hsame : screen = c := by
        have hparams := congrArg (fun r => r.params.get? "screen") (Option.some.inj hrequest)
        exact Value.text.inj (Option.some.inj hparams)
      subst hsame
      have hlt : i < (layout.existingScreens v root).length := (List.getElem?_eq_some_iff.mp hc).1
      rwa [(List.getElem?_inj hlt hnodup).mp (hc.trans hscreen.symm)]
    · intro hi
      exact ⟨i, c, selection, hi, hc, hselection, by rw [← htext]; rfl⟩

/-- A project with screens that differ only in the case of a letter. -/
def homeAndHome : Volume :=
  ⟨⟨[(["src", "Screens", "Home"], .dir), (["src", "Screens", "home"], .dir),
    (["src", "Screens"], .dir), (["src"], .dir)]⟩, []⟩

/-- The first of the two screens is reached by its text, and the second one is not. -/
theorem menus_reach_iff_home :
    homeAndHome.disk.IsProper ∧
    NetworkMachine.forScreen "users" {} homeAndHome ⟨".", []⟩ =
      .ok (.ofState "users" [] (.screen ["Home", "home"])) ∧
    (networkMachine.drive Dialogue.noScriptedAnswer (.ofState "users" [] (.screen ["Home", "home"]))
        ["Home", "get"]).result =
      .ok ⟨.screenApi, .ofList
        [("name", .text "users"), ("method", .text "get"), ("screen", .text "Home")]⟩ ∧
    (networkMachine.drive Dialogue.noScriptedAnswer (.ofState "users" [] (.screen ["Home", "home"]))
        ["home", "get"]).result ≠
      .ok ⟨.screenApi, .ofList
        [("name", .text "users"), ("method", .text "get"), ("screen", .text "home")]⟩ := by
  have hdisk : homeAndHome.disk.IsProper := ⟨by decide, by decide⟩
  have hscreens : ({} : Layout).existingScreens homeAndHome ⟨".", []⟩ = ["Home", "home"] := by
    have hadmissible : Disk.admissible ⟨".", ["src", "Screens"]⟩ = .ok () := by decide
    refine Volume.directoriesIn_of_locate ["src", "Screens"] ?_ rfl rfl (by decide)
    simp +decide [homeAndHome, Disk.locate, hadmissible, Disk.walk, Disk.steps, Disk.bareSteps,
      Disk.segmentStep, Path.join, Disk.get?, List.lookup_cons]
  have hmachine : NetworkMachine.forScreen "users" {} homeAndHome ⟨".", []⟩ =
      .ok (.ofState "users" [] (.screen ["Home", "home"])) := by
    rw [NetworkMachine.forScreen, hscreens]
    rfl
  obtain ⟨q, choices, -, -, hchoices, hreach⟩ :=
    (menus_reach_iff "users" {} homeAndHome ⟨".", []⟩ hdisk Dialogue.noScriptedAnswer).2 _ hmachine
  rw [hscreens] at hchoices
  subst hchoices
  refine ⟨hdisk, hmachine, ?_, ?_⟩
  · exact (hreach 0 "Home" rfl "get" (by decide)).1.mpr ⟨by decide, by simp⟩
  · rw [Ne, (hreach 1 "home" rfl "get" (by decide)).1]
    exact fun hreaches => absurd (hreaches.2 "Home" (by simp)) (by decide)

end AppScaffold
