import AppScaffold.Proofs.Dialogue.Menus
import AppScaffold.Proofs.Project.Acceptance
import AppScaffold.Proofs.Script.Matching

/-!
# The address in the literal

The base address of a request is written into a literal with a scheme and without the slashes at its
end. It always has a scheme, and nothing in it ends or escapes the literal. Three kinds of addresses
are accepted and not written as they should be: one that is made of slashes alone, one with a blank
before the slashes at its end, and one with a line break.
-/

namespace AppScaffold

namespace Address

variable {cs part : List Char} {s raw : String} {c : Char}

/-- A line feed, a carriage return, or a separator of lines or paragraphs. -/
def isLineBreak (c : Char) : Bool :=
  c == '\n' || c == '\r' || c.toNat == 0x2028 || c.toNat == 0x2029

/-- The scheme that is put before an address without one. -/
def scheme : List Char := "http://".toList

/-- A text holds another one that stands somewhere in it. -/
theorem holds_iff : holds part cs = true ↔ part <:+: cs := by
  induction cs with
  | nil => rw [holds, List.isEmpty_iff, List.infix_nil]
  | cons c cs ih =>
    have hfront : (Script.afterText part (c :: cs)).isSome = true ↔ part <+: c :: cs := by
      rw [Option.isSome_iff_exists]
      exact exists_congr fun rest => Script.afterText_eq_some_iff.trans eq_comm
    rw [holds, Bool.or_eq_true, hfront, ih, List.infix_cons_iff]

/-- What follows the characters up to the last one that is no slash are slashes. -/
theorem exists_slashes (cs : List Char) :
    ∃ n, cs = withoutFinalSlashes cs ++ List.replicate n '/' := by
  refine ⟨(cs.rtakeWhile (· == '/')).length, ?_⟩
  have hslashes : cs.rtakeWhile (· == '/') =
      List.replicate (cs.rtakeWhile (· == '/')).length '/' :=
    List.eq_replicate_of_mem fun c hc => by simpa using List.mem_rtakeWhile_imp hc
  rw [← hslashes]
  exact List.rdropWhile_append_rtakeWhile.symm

/-- No slash is left at the end. -/
theorem getLast?_withoutFinalSlashes (cs : List Char) :
    (withoutFinalSlashes cs).getLast? ≠ some '/' := by
  intro hlast
  have hne : withoutFinalSlashes cs ≠ [] := by
    intro hnil
    rw [hnil] at hlast
    cases hlast
  have hnot := List.rdropWhile_last_not (· == '/') cs hne
  rw [List.getLast?_eq_getLast_of_ne_nil hne, Option.some.injEq] at hlast
  exact hnot (beq_iff_eq.mpr hlast)

/-- Without a slash at the end nothing is taken away. -/
theorem withoutFinalSlashes_eq_self (h : cs.getLast? ≠ some '/') : withoutFinalSlashes cs = cs := by
  refine List.rdropWhile_eq_self_iff.mpr fun hne hslash => h ?_
  rw [List.getLast?_eq_getLast_of_ne_nil hne, beq_iff_eq.mp hslash]

/-- Nothing is left of slashes alone, and of nothing else. -/
theorem withoutFinalSlashes_eq_nil_iff : withoutFinalSlashes cs = [] ↔ ∀ c ∈ cs, c = '/' := by
  refine List.rdropWhile_eq_nil_iff.trans ?_
  simp

/-- What is left of a text that is followed by slashes. -/
theorem withoutFinalSlashes_append (hc : c ≠ '/') (front : List Char) (n : Nat) :
    withoutFinalSlashes (front ++ c :: List.replicate n '/') = front ++ [c] := by
  have hsplit : front ++ c :: List.replicate n '/' = (front ++ [c]) ++ List.replicate n '/' := by
    rw [List.append_assoc]
    rfl
  rw [hsplit, withoutFinalSlashes, List.reverse_append, List.reverse_replicate,
    List.dropWhile_append_of_pos, List.reverse_append, List.reverse_singleton, List.singleton_append,
    List.dropWhile_cons_of_neg (by simpa using hc), List.reverse_cons, List.reverse_reverse]
  intro d hd
  simpa using List.eq_of_mem_replicate hd

/-- What is written of an address behind the scheme. -/
def body (raw : String) : List Char := withoutFinalSlashes (Text.trimChars raw.toList)

/-- The address that is written: the scheme is put before it unless it has one. -/
theorem toList_normal (raw : String) :
    (normal raw).toList =
      (if holds "://".toList (body raw) = true then [] else scheme) ++ body raw := by
  have hbody : (String.ofList (body raw)).toList = body raw := String.toList_ofList
  rw [normal, ← body]
  by_cases h : holds "://".toList (body raw) = true
  · rw [if_pos h, if_pos h, hbody, List.nil_append]
  · rw [if_neg h, if_neg h, String.toList_append]
    exact congrArg (scheme ++ ·) hbody

/-- There is no blank in the scheme, nothing that quotes or escapes, and no line break. -/
theorem plain_of_mem_scheme (h : c ∈ scheme) :
    Text.isBlank c = false ∧ isQuoteOrBackslash c = false ∧ isLineBreak c = false := by
  have hall : scheme.all (fun d => !Text.isBlank d && (!isQuoteOrBackslash d && !isLineBreak d)) =
      true := by decide
  simpa using List.all_eq_true.mp hall c h

/-- The scheme is set off by a colon and two slashes. -/
theorem infix_scheme : "://".toList <:+: scheme := ⟨"http".toList, [], rfl⟩

/-- An address is written with a scheme. -/
theorem infix_normal (raw : String) : "://".toList <:+: (normal raw).toList := by
  rw [toList_normal]
  split_ifs with h
  · exact holds_iff.mp h
  · exact infix_scheme.trans (List.prefix_append _ _).isInfix

/-- The last character that is written is the last one of the address. -/
theorem getLast?_normal (h : body raw ≠ []) : (normal raw).toList.getLast? = (body raw).getLast? := by
  rw [toList_normal, List.getLast?_append_of_ne_nil _ h]

/-- Of an address of slashes the scheme alone is written. -/
theorem normal_of_body (h : body raw = []) : normal raw = "http://" := by
  apply String.toList_injective
  rw [toList_normal, h]
  rfl

/-- The characters outside the scheme are those of the address. -/
theorem mem_normal_iff (hc : c ∉ scheme) :
    c ∈ (normal raw).toList ↔ c ∈ Text.trimChars raw.toList := by
  have hslash : c ≠ '/' := by
    rintro rfl
    exact hc (by decide)
  obtain ⟨n, hn⟩ := exists_slashes (Text.trimChars raw.toList)
  rw [toList_normal, hn, ← body, List.mem_append, List.mem_append]
  constructor
  · rintro (h | h)
    · split_ifs at h
      · cases h
      · exact absurd h hc
    · exact .inl h
  · rintro (h | h)
    · exact .inr h
    · exact absurd (List.eq_of_mem_replicate h) hslash

end Address

namespace Text

variable {cs : List Char}

/-- Without blanks at either end there is nothing to trim, and only then. -/
theorem trimChars_eq_self_iff : trimChars cs = cs ↔
    (∀ c, cs.head? = some c → isBlank c = false) ∧
      ∀ c, cs.getLast? = some c → isBlank c = false := by
  have hback : trimEnd cs = cs ↔ ∀ c, cs.getLast? = some c → isBlank c = false := by
    refine List.rdropWhile_eq_self_iff.trans ⟨fun h c hc => ?_, fun h hne hblank => ?_⟩
    · have hne : cs ≠ [] := by
        rintro rfl
        cases hc
      rw [List.getLast?_eq_getLast_of_ne_nil hne, Option.some.injEq] at hc
      simpa [hc] using h hne
    · rw [h _ (List.getLast?_eq_getLast_of_ne_nil hne)] at hblank
      cases hblank
  have hfront : cs.dropWhile isBlank = cs ↔ ∀ c, cs.head? = some c → isBlank c = false := by
    cases cs with
    | nil => simp
    | cons c cs =>
      rw [List.dropWhile_eq_self_iff]
      simp
  constructor
  · intro h
    have hlength : cs.length ≤ (cs.dropWhile isBlank).length := by
      conv_lhs => rw [← h]
      exact (List.rdropWhile_prefix isBlank _).length_le
    have hself := (List.dropWhile_suffix isBlank).eq_of_length_le hlength
    rw [trimChars, hself] at h
    exact ⟨hfront.mp hself, hback.mp h⟩
  · rintro ⟨h, h'⟩
    rw [trimChars, hfront.mpr h, hback.mpr h']

end Text

namespace Address

variable {s raw : String} {c : Char}

/-- An address with a scheme, without blanks around it and slashes at its end, is written as it is. -/
theorem normal_eq_self (hscheme : "://".toList <:+: s.toList)
    (htrim : Text.trimChars s.toList = s.toList) (hlast : s.toList.getLast? ≠ some '/') :
    normal s = s := by
  have hbody : body s = s.toList := by rw [body, htrim, withoutFinalSlashes_eq_self hlast]
  apply String.toList_injective
  rw [toList_normal, hbody, if_pos (holds_iff.mpr hscheme), List.nil_append]

/-- An address with a blank at its end is not written as it is. -/
theorem isBlank_getLast (h : normal s = s) (hlast : s.toList.getLast? = some c) :
    Text.isBlank c = false := by
  by_contra hblank
  have hproper : (Text.trimChars s.toList).length < s.toList.length := by
    refine lt_of_le_of_ne (Text.isInfix_trimChars s.toList).length_le fun hlength => hblank ?_
    exact (Text.trimChars_eq_self_iff.mp
      ((Text.isInfix_trimChars s.toList).sublist.eq_of_length hlength)).2 c hlast
  have hbody : body s <+: Text.trimChars s.toList := List.rdropWhile_prefix _ _
  have hlist := toList_normal s
  rw [h] at hlist
  split_ifs at hlist with hscheme
  · rw [List.nil_append] at hlist
    have hlength := congrArg List.length hlist
    have hle := hbody.length_le
    omega
  · -- the address begins with the scheme and with its own body, so that one begins with the other
    have hfront : s.toList.dropWhile Text.isBlank = s.toList := by
      rw [hlist]
      rfl
    have hprefix : Text.trimChars s.toList <+: s.toList := by
      conv_rhs => rw [← hfront]
      exact List.rdropWhile_prefix _ _
    have hstart : scheme <+: s.toList := by
      rw [hlist]
      exact List.prefix_append _ _
    rcases List.prefix_or_prefix_of_prefix hstart (hbody.trans hprefix) with hle | hle
    · exact hscheme (holds_iff.mpr (infix_scheme.trans hle.isInfix))
    · have hmem : c ∈ scheme := by
        have hc := List.mem_of_getLast? hlast
        rw [hlist] at hc
        exact (List.mem_append.mp hc).elim id fun h => hle.subset h
      exact hblank (plain_of_mem_scheme hmem).1

/-- The address is made of slashes alone. -/
def IsSlashes (raw : String) : Prop := ∀ c ∈ raw.toList, c = '/'

/-- A blank stands before the slashes at the end of the address. -/
def HasBlankEnd (raw : String) : Prop :=
  ∃ front c n, raw.toList = front ++ c :: List.replicate n '/' ∧ Text.isBlank c = true

/-- A trimmed address loses its slashes, and nothing else. -/
theorem body_of_trim (htrim : Text.trim raw = raw) : body raw = withoutFinalSlashes raw.toList := by
  rw [body, ← String.toList_ofList (l := Text.trimChars raw.toList), ← Text.trim, htrim]

/-- Nothing is left of an address of slashes. -/
theorem body_eq_nil_iff (htrim : Text.trim raw = raw) : body raw = [] ↔ IsSlashes raw := by
  rw [body_of_trim htrim, withoutFinalSlashes_eq_nil_iff, IsSlashes]

/-- The blank before the slashes is the last character that is left. -/
theorem hasBlankEnd_iff (htrim : Text.trim raw = raw) :
    HasBlankEnd raw ↔ ∃ c, (body raw).getLast? = some c ∧ Text.isBlank c = true := by
  rw [body_of_trim htrim]
  constructor
  · rintro ⟨front, c, n, hraw, hblank⟩
    have hslash : c ≠ '/' := by
      rintro rfl
      exact absurd hblank (by decide)
    rw [hraw, withoutFinalSlashes_append hslash]
    exact ⟨c, List.getLast?_concat, hblank⟩
  · rintro ⟨c, hlast, hblank⟩
    obtain ⟨n, hn⟩ := exists_slashes raw.toList
    obtain ⟨front, hfront⟩ := List.getLast?_eq_some_iff.mp hlast
    rw [hfront, List.append_assoc] at hn
    exact ⟨front, c, n, hn, hblank⟩

/-- An address ends with a slash when it has been written only if it was made of slashes. -/
theorem getLast?_normal_iff (htrim : Text.trim raw = raw) :
    (normal raw).toList.getLast? = some '/' ↔ IsSlashes raw := by
  rw [← body_eq_nil_iff htrim]
  constructor
  · intro hlast
    by_contra hne
    rw [getLast?_normal hne] at hlast
    exact getLast?_withoutFinalSlashes _ hlast
  · intro hnil
    rw [normal_of_body hnil]
    rfl

/-- An address that has been written is written again as it is, unless it was made of slashes or a
blank was left at its end. -/
theorem normal_normal_iff (htrim : Text.trim raw = raw) :
    normal (normal raw) = normal raw ↔ ¬IsSlashes raw ∧ ¬HasBlankEnd raw := by
  rw [← body_eq_nil_iff htrim, hasBlankEnd_iff htrim]
  constructor
  · intro h
    have hne : body raw ≠ [] := by
      intro hnil
      rw [normal_of_body hnil] at h
      exact absurd h (by decide)
    refine ⟨hne, ?_⟩
    rintro ⟨c, hlast, hblank⟩
    rw [← getLast?_normal hne] at hlast
    rw [isBlank_getLast h hlast] at hblank
    cases hblank
  · rintro ⟨hne, hend⟩
    have hchars : Text.trimChars raw.toList = raw.toList := by
      conv_rhs => rw [← htrim, Text.trim, String.toList_ofList]
    have hlast := getLast?_normal hne
    have htrimmed : Text.trimChars (normal raw).toList = (normal raw).toList := by
      refine Text.trimChars_eq_self_iff.mpr ⟨fun c hc => ?_, fun c hc => ?_⟩
      · rw [toList_normal] at hc
        split_ifs at hc
        · rw [List.nil_append] at hc
          refine (Text.trimChars_eq_self_iff.mp hchars).1 c ?_
          obtain ⟨n, hn⟩ := exists_slashes raw.toList
          rw [hn, ← body_of_trim htrim, List.head?_append_of_ne_nil _ hne, hc]
        · obtain rfl := Option.some.inj hc
          decide
      · rw [hlast] at hc
        exact Bool.eq_false_iff.mpr fun hblank => hend ⟨c, hc, hblank⟩
    refine normal_eq_self (infix_normal raw) htrimmed ?_
    rw [hlast]
    exact getLast?_withoutFinalSlashes _

end Address

/-- The file of the base address is one line. -/
theorem Skeleton.text_baseAddress (url : String) :
    text (baseAddress url) = "export const BASE_URL = '" ++ url ++ "';\n" := by
  rw [baseAddress, text, text, String.append_empty, String.append_assoc]
  rfl

/-- The file of the base address holds one literal. The address in it has a scheme, and no quote and
no backslash is in it. A line break is in the literal exactly if one was given, a slash stands at its
end exactly if nothing but slashes was given, and the address would be written anew in another way
exactly if nothing but slashes was given or a blank before the slashes at the end. -/
theorem Template.address_of_instantiate {e : Extensions} {p : Parameters} {tree : FileTree}
    (h : instantiate e .apiConfig p = .ok tree) :
    ∃ raw, p.text "base_url" = some raw ∧
      tree = ⟨[⟨.ofText (e.scriptFile "api.config"),
        "export const BASE_URL = '" ++ Address.normal raw ++ "';\n", "API base address"⟩]⟩ ∧
      "://".toList <:+: (Address.normal raw).toList ∧
      (∀ c ∈ (Address.normal raw).toList, Address.isQuoteOrBackslash c = false) ∧
      ((∃ c ∈ (Address.normal raw).toList, Address.isLineBreak c = true) ↔
        ∃ c ∈ raw.toList, Address.isLineBreak c = true) ∧
      ((Address.normal raw).toList.getLast? = some '/' ↔ Address.IsSlashes raw) ∧
      (Address.normal (Address.normal raw) = Address.normal raw ↔
        ¬Address.IsSlashes raw ∧ ¬Address.HasBlankEnd raw) := by
  obtain ⟨-, -, h⟩ := exists_of_bind_eq_ok h
  obtain ⟨raw, hraw, h⟩ := exists_of_bind_eq_ok h
  split_ifs at h with hquote
  rw [Skeleton.text_baseAddress] at h
  obtain rfl := Except.ok.inj h
  have htext := Template.of_required hraw
  have htrim := Parameters.trim_of_text htext
  have hchars : Text.trimChars raw.toList = raw.toList := by
    conv_rhs => rw [← htrim, Text.trim, String.toList_ofList]
  have hmem : ∀ c, c ∉ Address.scheme → (c ∈ (Address.normal raw).toList ↔ c ∈ raw.toList) := by
    intro c hc
    rw [Address.mem_normal_iff hc, hchars]
  refine ⟨raw, htext, rfl, Address.infix_normal raw, fun c hc => ?_, exists_congr fun c => ?_,
    Address.getLast?_normal_iff htrim, Address.normal_normal_iff htrim⟩
  · by_cases hscheme : c ∈ Address.scheme
    · exact (Address.plain_of_mem_scheme hscheme).2.1
    · rw [List.any_eq_true, not_exists] at hquote
      exact Bool.eq_false_iff.mpr fun h => hquote c ⟨(hmem c hscheme).mp hc, h⟩
  · refine and_congr_left fun hbreak => hmem c fun hscheme => ?_
    rw [(Address.plain_of_mem_scheme hscheme).2.2] at hbreak
    cases hbreak

/-- An address with a line break, and with a blank before the slashes at its end. -/
def Address.broken : Parameters := ⟨[("base_url", "a\nb //")]⟩

/-- Such an address is accepted; the literal is broken by the line break, and the blank stays. -/
theorem Template.address_of_instantiate_broken :
    instantiate {} .apiConfig Address.broken =
      .ok ⟨[⟨"api.config.js", "export const BASE_URL = 'http://a\nb ';\n", "API base address"⟩]⟩ ∧
    Address.broken.text "base_url" = some "a\nb //" ∧
    (∃ c ∈ (Address.normal "a\nb //").toList, Address.isLineBreak c = true) ∧
    (Address.normal "a\nb //").toList.getLast? ≠ some '/' ∧
    Address.normal (Address.normal "a\nb //") ≠ Address.normal "a\nb //" := by
  have h : instantiate {} .apiConfig Address.broken =
      .ok ⟨[⟨"api.config.js", "export const BASE_URL = 'http://a\nb ';\n", "API base address"⟩]⟩ := by
    decide
  have hraw : Address.broken.text "base_url" = some "a\nb //" := by decide
  obtain ⟨raw, htext, -, -, -, hbreak, hlast, hnormal⟩ := address_of_instantiate h
  obtain rfl := Option.some.inj (hraw.symm.trans htext)
  refine ⟨h, hraw, hbreak.mpr ⟨'\n', by decide, by decide⟩, ?_, ?_⟩
  · refine mt hlast.mp fun hslashes => ?_
    exact absurd (hslashes 'a' (by decide)) (by decide)
  · exact fun heq => (hnormal.mp heq).2 ⟨['a', '\n', 'b'], ' ', 2, by decide, by decide⟩

end AppScaffold
