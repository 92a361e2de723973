import AppScaffold.Script.Role
import Mathlib.Data.List.Basic
import Mathlib.Tactic.Common

/-!
# Reading a script piece by piece

The reader looks one character ahead, so that a piece of a script can only be read when the character
behind it is known. The roles of a script are those of its pieces, each read from where the reader
stands behind the piece before it. What lies behind a piece matters only if the piece ends with the
first half of a two-character mark.
-/

namespace AppScaffold.Script

/-- Where the reader stands behind some characters, `next` being the character behind them. -/
def modeAfter (next : Option Char) : Mode → List Char → Mode
  | mode, [] => mode
  | mode, c :: cs => modeAfter next (mode.step c (cs.head?.or next)).2 cs

/-- Some characters with their roles, `next` being the character behind them. -/
def rolesBefore (next : Option Char) : Mode → List Char → List (Char × Role)
  | _, [] => []
  | mode, c :: cs =>
    (c, (mode.step c (cs.head?.or next)).1) ::
      rolesBefore next (mode.step c (cs.head?.or next)).2 cs

/-- A whole script is a piece with nothing behind it. -/
theorem roles_eq_rolesBefore (mode : Mode) (cs : List Char) :
    roles mode cs = rolesBefore none mode cs := by
  induction cs generalizing mode with
  | nil => rfl
  | cons c cs ih =>
    rw [roles, rolesBefore, Option.or_none, ih]

@[simp] theorem modeAfter_nil (next : Option Char) (mode : Mode) :
    modeAfter next mode [] = mode := rfl

/-- Each character of a piece gets one role. -/
@[simp] theorem length_rolesBefore (next : Option Char) (mode : Mode) (cs : List Char) :
    (rolesBefore next mode cs).length = cs.length := by
  induction cs generalizing mode with
  | nil => rfl
  | cons c cs ih => simp only [rolesBefore, List.length_cons, ih]

/-- Each character of a script gets one role. -/
@[simp] theorem length_roles (mode : Mode) (cs : List Char) :
    (roles mode cs).length = cs.length := by
  rw [roles_eq_rolesBefore, length_rolesBefore]

/-- The second of two pieces is read from where the reader stands behind the first. -/
theorem rolesBefore_append (next : Option Char) (mode : Mode) (xs ys : List Char) :
    rolesBefore next mode (xs ++ ys) =
      rolesBefore (ys.head?.or next) mode xs ++
        rolesBefore next (modeAfter (ys.head?.or next) mode xs) ys := by
  induction xs generalizing mode with
  | nil => rfl
  | cons c xs ih =>
    simp only [List.cons_append, rolesBefore, modeAfter, List.head?_append, Option.or_assoc, ih]

/-- The reader passes two pieces one after the other. -/
theorem modeAfter_append (next : Option Char) (mode : Mode) (xs ys : List Char) :
    modeAfter next mode (xs ++ ys) =
      modeAfter next (modeAfter (ys.head?.or next) mode xs) ys := by
  induction xs generalizing mode with
  | nil => rfl
  | cons c xs ih =>
    simp only [List.cons_append, modeAfter, List.head?_append, Option.or_assoc, ih]

/-- The roles of a script are those of its first piece and of the rest. -/
theorem roles_append (mode : Mode) (xs ys : List Char) :
    roles mode (xs ++ ys) =
      rolesBefore ys.head? mode xs ++ roles (modeAfter ys.head? mode xs) ys := by
  rw [roles_eq_rolesBefore, rolesBefore_append, Option.or_none, roles_eq_rolesBefore]

/-- Only the first half of a two-character mark makes the reader look ahead. -/
theorem step_next {mode : Mode} {c : Char} (hslash : mode = .code → c ≠ '/')
    (hstar : mode = .block → c ≠ '*') (next next' : Option Char) :
    mode.step c next = mode.step c next' := by
  cases mode with
  | code => simp only [Mode.step, hslash rfl, false_and, if_false]
  | block => simp only [Mode.step, hstar rfl, false_and, if_false]
  | _ => rfl

/-- The character behind does not matter unless it is the second half of a two-character mark. -/
theorem step_unmarked {mode : Mode} {c n : Char} (hslash : n ≠ '/') (hstar : n ≠ '*') :
    mode.step c (some n) = mode.step c none := by
  cases mode with
  | code => simp [Mode.step, hslash, hstar]
  | block => simp [Mode.step, hslash]
  | _ => rfl

/-- The last character of a piece alone is read with what lies behind the piece in view. -/
theorem read_concat (next : Option Char) (mode : Mode) (cs : List Char) (c : Char) :
    rolesBefore next mode (cs ++ [c]) =
        rolesBefore (some c) mode cs ++ [(c, ((modeAfter (some c) mode cs).step c next).1)] ∧
      modeAfter next mode (cs ++ [c]) = ((modeAfter (some c) mode cs).step c next).2 := by
  rw [rolesBefore_append, modeAfter_append]
  exact ⟨rfl, rfl⟩

/-- A piece that ends in code, and not with a slash, is read in the same way whatever lies
behind it. -/
theorem read_next {next : Option Char} {mode : Mode} {cs : List Char}
    (hcode : modeAfter next mode cs = .code) (hslash : cs.getLast? ≠ some '/')
    (next' : Option Char) :
    rolesBefore next' mode cs = rolesBefore next mode cs ∧ modeAfter next' mode cs = .code := by
  rcases List.eq_nil_or_concat' cs with rfl | ⟨cs, c, rfl⟩
  · exact ⟨rfl, hcode⟩
  · rw [List.getLast?_concat] at hslash
    rw [(read_concat ..).2] at hcode
    have hstep : (modeAfter (some c) mode cs).step c next' =
        (modeAfter (some c) mode cs).step c next := by
      refine step_next (fun _ hc => hslash (congrArg some hc)) (fun hblock hc => ?_) _ _
      -- a star in a block comment leaves the comment open
      rw [hblock, hc] at hcode
      simp only [Mode.step] at hcode
      split at hcode <;> cases hcode
    rw [(read_concat ..).1, (read_concat ..).1, (read_concat ..).2, hstep]
    exact ⟨rfl, hcode⟩

/-- A piece that does not end with the first half of a two-character mark is read in the same way
whatever lies behind it. -/
theorem read_unmarked_end {cs : List Char}
    (hlast : ∀ c, cs.getLast? = some c → c ≠ '/' ∧ c ≠ '*') (mode : Mode)
    (next next' : Option Char) :
    rolesBefore next mode cs = rolesBefore next' mode cs ∧
      modeAfter next mode cs = modeAfter next' mode cs := by
  rcases List.eq_nil_or_concat' cs with rfl | ⟨cs, c, rfl⟩
  · exact ⟨rfl, rfl⟩
  · obtain ⟨hslash, hstar⟩ := hlast c (List.getLast?_concat ..)
    have hstep : (modeAfter (some c) mode cs).step c next =
        (modeAfter (some c) mode cs).step c next' :=
      step_next (fun _ => hslash) (fun _ => hstar) next next'
    rw [(read_concat ..).1, (read_concat ..).1, (read_concat ..).2, (read_concat ..).2, hstep]
    exact ⟨rfl, rfl⟩

/-- A piece is read in the same way at the end of a script and before a character that is no second
half of a two-character mark. -/
theorem read_unmarked {n : Char} (hslash : n ≠ '/') (hstar : n ≠ '*') (mode : Mode)
    (cs : List Char) :
    rolesBefore (some n) mode cs = rolesBefore none mode cs ∧
      modeAfter (some n) mode cs = modeAfter none mode cs := by
  rcases List.eq_nil_or_concat' cs with rfl | ⟨cs, c, rfl⟩
  · exact ⟨rfl, rfl⟩
  · rw [(read_concat ..).1, (read_concat ..).1, (read_concat ..).2, (read_concat ..).2,
      step_unmarked hslash hstar]
    exact ⟨rfl, rfl⟩

/-- No quote, and no slash. -/
def isPlain (c : Char) : Bool := !isQuote c && c != '/'

/-- Without quotes and slashes code stays code. -/
theorem read_plain {cs : List Char} (hcs : ∀ c ∈ cs, isPlain c = true) (next : Option Char) :
    rolesBefore next .code cs = cs.map (·, .code) ∧ modeAfter next .code cs = .code := by
  induction cs with
  | nil => exact ⟨rfl, rfl⟩
  | cons c cs ih =>
    have hc := hcs c List.mem_cons_self
    simp only [isPlain, Bool.and_eq_true, Bool.not_eq_true', bne_iff_ne] at hc
    have hstep : ∀ n, Mode.code.step c n = (.code, .code) := by
      intro n
      simp [Mode.step, hc.1, hc.2]
    have hrest := ih fun d hd => hcs d (List.mem_cons_of_mem _ hd)
    rw [rolesBefore, modeAfter, hstep, hrest.1, hrest.2]
    exact ⟨rfl, rfl⟩

/-- The roles in the first piece of a script are those of the piece. -/
theorem roles_getElem?_of_lt {xs : List Char} {i : Nat} (hi : i < xs.length) (mode : Mode)
    (ys : List Char) :
    (roles mode (xs ++ ys))[i]? = (rolesBefore ys.head? mode xs)[i]? := by
  rw [roles_append, List.getElem?_append_left]
  rw [length_rolesBefore]
  exact hi

/-- A place is in code when the reader stands in code before it, or there behind a comment that the
line end closes. -/
theorem isCodeIndex_append (xs : List Char) (y : Char) (ys : List Char) :
    isCodeIndex (xs ++ y :: ys) xs.length = true ↔
      modeAfter (some y) .code xs = .code ∨
        modeAfter (some y) .code xs = .line ∧ y = '\n' := by
  have hat : (roles .code (xs ++ y :: ys))[xs.length]? =
      some (y, ((modeAfter (some y) .code xs).step y ys.head?).1) := by
    rw [roles_append, List.getElem?_append_right (Nat.le_of_eq (length_rolesBefore ..)),
      length_rolesBefore, Nat.sub_self]
    rfl
  rw [isCodeIndex, hat]
  cases modeAfter (some y) .code xs with
  | code =>
    simp only [Mode.step, true_or, iff_true]
    split_ifs <;> rfl
  | line =>
    simp only [Mode.step, reduceCtorEq, false_or, true_and]
    split_ifs with hy <;> simp [Role.isBoundary, hy]
  | quote mark =>
    simp only [Mode.step]
    split_ifs <;> simp [Role.isBoundary]
  | _ => simp [Mode.step, Role.isBoundary]

/-- Where a script stays the same it has the same places in code, if the part that stays does not
end with the first half of a two-character mark. -/
theorem isCodeIndex_congr {xs : List Char}
    (hlast : ∀ c, xs.getLast? = some c → c ≠ '/' ∧ c ≠ '*') {i : Nat} (hi : i < xs.length)
    (ys zs : List Char) : isCodeIndex (xs ++ ys) i = isCodeIndex (xs ++ zs) i := by
  have hread := (read_unmarked_end hlast .code ys.head? zs.head?).1
  rw [isCodeIndex, isCodeIndex, roles_getElem?_of_lt hi, roles_getElem?_of_lt hi, hread]

/-- The piece ends in code and is read in the same way whatever follows it. -/
def Settled (p : List Char) : Prop :=
  ∀ next, rolesBefore next .code p = roles .code p ∧ modeAfter next .code p = .code

/-- A piece that ends in code is settled if no comment mark can begin with its last character. -/
theorem settled_of_modeAfter {next : Option Char} {p : List Char}
    (hcode : modeAfter next .code p = .code) (hslash : p.getLast? ≠ some '/') : Settled p := by
  intro next'
  rw [roles_eq_rolesBefore, (read_next hcode hslash none).1]
  exact read_next hcode hslash next'

/-- What follows a settled piece is read from code. -/
theorem Settled.roles_append {p : List Char} (hp : Settled p) (q : List Char) :
    roles .code (p ++ q) = roles .code p ++ roles .code q := by
  rw [Script.roles_append, (hp _).1, (hp _).2]

/-- Two settled pieces are settled together. -/
theorem Settled.append {p q : List Char} (hp : Settled p) (hq : Settled q) : Settled (p ++ q) := by
  intro next
  rw [rolesBefore_append, modeAfter_append, (hp _).1, (hp _).2, (hq _).1, (hq _).2,
    hp.roles_append]
  exact ⟨rfl, rfl⟩

/-- Behind a settled piece the places in code are those of the rest. -/
theorem Settled.isCodeIndex_append_right {p : List Char} (hp : Settled p) (q : List Char) (i : Nat) :
    isCodeIndex (p ++ q) (i + p.length) = isCodeIndex q i := by
  rw [isCodeIndex, isCodeIndex, hp.roles_append, List.getElem?_append_right, length_roles,
    Nat.add_sub_cancel]
  rw [length_roles]
  omega

/-- Inside a settled piece the places in code are its own. -/
theorem Settled.isCodeIndex_append_left {p : List Char} (hp : Settled p) (q : List Char) {i : Nat}
    (hi : i < p.length) : isCodeIndex (p ++ q) i = isCodeIndex p i := by
  rw [isCodeIndex, isCodeIndex, hp.roles_append, List.getElem?_append_left]
  rw [length_roles]
  exact hi

end AppScaffold.Script
