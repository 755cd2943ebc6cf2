/-
The command line of the daemon (main.c): numbers as `strtol` reads them, the options as
`getopt` returns them, and the checks made before anything else.
-/
import Sendfiled.Startup.Process
import Mathlib.Data.Nat.Digits.Lemmas

namespace Sendfiled.Startup

open Prog

section Numerals

def isspace (b : UInt8) : Bool := b == 32 || (9 ≤ b && b ≤ 13)

def isdigit (b : UInt8) : Bool := 48 ≤ b && b ≤ 57

/-- What `strtol` finds in a string: a sign, digits and the rest. -/
structure Numeral where
  negative : Bool
  digits : List UInt8
  rest : List UInt8

/-- An optional sign in front of digits. -/
def readSigned : List UInt8 → Numeral
  | 45 :: tail => ⟨true, tail.takeWhile isdigit, tail.dropWhile isdigit⟩
  | 43 :: tail => ⟨false, tail.takeWhile isdigit, tail.dropWhile isdigit⟩
  | tail => ⟨false, tail.takeWhile isdigit, tail.dropWhile isdigit⟩

def readNumeral (s : List UInt8) : Numeral := readSigned (s.dropWhile isspace)

def decimalValue (digits : List UInt8) : Nat :=
  digits.foldl (fun acc b => acc * 10 + (b.toNat - 48)) 0

def Numeral.value (n : Numeral) : Int :=
  if n.negative then -(decimalValue n.digits : Int) else decimalValue n.digits

def longMax : Int := 2 ^ 63 - 1

def longMin : Int := -2 ^ 63

def intMax : Int := 2 ^ 31 - 1

/-- `strtol(s, NULL, 10)`: its value and the error it sets.  A string without digits gives
zero, for which FreeBSD sets `EINVAL` as well. -/
def strtol (os : Os) (s : CString) : Int × Option Errno :=
  let n := readNumeral s.chars
  if n.digits = [] then (0, if os = .freebsd then some EINVAL else none)
  else if longMax < n.value then (longMax, some ERANGE)
  else if n.value < longMin then (longMin, some ERANGE)
  else (n.value, none)

/-- `opt_strtol`. -/
def optStrtol (os : Os) (s : CString) : P Int := do
  setErrno 0
  let (l, e) := strtol os s
  if let some e := e then setErrno e
  if (← gets Process.errno) ≠ 0 ∨ l = 0 ∨ l = longMin ∨ l = longMax then pure (-1)
  else pure l

/-- The string is a number: white space, a sign and digits, and nothing else. -/
def Denotes (s : CString) (n : Int) : Prop :=
  (readNumeral s.chars).digits ≠ [] ∧ (readNumeral s.chars).rest = [] ∧
    (readNumeral s.chars).value = n

end Numerals

/-- An option as `getopt` returns it; `unknown` is its `'?'`. -/
inductive Opt where
  | rootDir (arg : CString)
  | uname (arg : CString)
  | gname (arg : CString)
  | srvname (arg : CString)
  | sockdir (arg : CString)
  | maxfiles (arg : CString)
  | timeout (arg : CString)
  | sync
  | daemonise
  | unknown

/-- The variables of `main` that the options set. -/
structure Settings where
  srvname : Option CString
  rootDir : Option CString
  sockdir : CString
  uname : Option CString
  gname : Option CString
  maxfiles : Int
  fdTimeoutMs : Int
  doSync : Bool
  daemonise : Bool

/-- `OPEN_FD_TIMEOUT_MS_MAX`. -/
def openFdTimeoutMsMax : Int := 60 * 60 * 1000

/-- `main` before the first option; the directory is `SFD_SRV_SOCKDIR`. -/
def Settings.initial (sockdir : CString) : Settings where
  srvname := none
  rootDir := none
  sockdir := sockdir
  uname := none
  gname := none
  maxfiles := 0
  fdTimeoutMs := 30000
  doSync := false
  daemonise := false

/-- The loop over the options; `none` when `main` returns from it. -/
def parseOptions (os : Os) : List Opt → Settings → P (Option Settings)
  | [], o => pure (some o)
  | .rootDir arg :: opts, o => parseOptions os opts { o with rootDir := some arg }
  | .uname arg :: opts, o => parseOptions os opts { o with uname := some arg }
  | .gname arg :: opts, o => parseOptions os opts { o with gname := some arg }
  | .srvname arg :: opts, o => parseOptions os opts { o with srvname := some arg }
  | .sockdir arg :: opts, o => parseOptions os opts { o with sockdir := arg }
  | .maxfiles arg :: opts, o => do
      let n ← optStrtol os arg
      parseOptions os opts { o with maxfiles := n }
  | .timeout arg :: opts, o => do
      let n ← optStrtol os arg
      parseOptions os opts { o with fdTimeoutMs := n }
  | .sync :: opts, o => parseOptions os opts { o with doSync := true }
  | .daemonise :: opts, o => parseOptions os opts { o with daemonise := true }
  | .unknown :: _, _ => pure none

/-- The checks of the options, each of which goes to `fail1`. -/
def checkOptions (o : Settings) : P Bool :=
  if o.rootDir.isNone ∨ o.srvname.isNone ∨ o.maxfiles = 0 then do
    setErrno EINVAL
    pure false
  else if o.maxfiles = -1 then pure false
  else if o.fdTimeoutMs = -1 then pure false
  else if openFdTimeoutMsMax < o.fdTimeoutMs then pure false
  else pure true

/-- The strings `opt_strtol` refuses. -/
def Refused (s : CString) : Prop :=
  (readNumeral s.chars).digits = [] ∨ (readNumeral s.chars).value = 0 ∨
    (readNumeral s.chars).value ≤ longMin ∨ longMax ≤ (readNumeral s.chars).value

instance (s : CString) : Decidable (Refused s) := inferInstanceAs (Decidable (_ ∨ _))

/-- What `opt_strtol` returns. -/
def optValue (s : CString) : Int := if Refused s then -1 else (readNumeral s.chars).value

/-- What it leaves in `errno`. -/
def optErrno (os : Os) (s : CString) : Errno := (strtol os s).2.getD 0

/-- The ways `strtol` returns. -/
theorem strtol_cases (os : Os) (s : CString) :
    (∃ l e, strtol os s = (l, some e) ∧ e ≠ 0 ∧ Refused s) ∨
      (strtol os s = (0, none) ∧ Refused s) ∨
      (strtol os s = ((readNumeral s.chars).value, none) ∧ (readNumeral s.chars).digits ≠ [] ∧
        longMin ≤ (readNumeral s.chars).value ∧ (readNumeral s.chars).value ≤ longMax) := by
  unfold strtol Refused
  simp only
  split_ifs with hdigits hos hmax hmin
  · exact Or.inl ⟨0, EINVAL, rfl, by decide, Or.inl hdigits⟩
  · exact Or.inr (Or.inl ⟨rfl, Or.inl hdigits⟩)
  · exact Or.inl ⟨_, ERANGE, rfl, by decide, Or.inr (Or.inr (Or.inr (by omega)))⟩
  · exact Or.inl ⟨_, ERANGE, rfl, by decide, Or.inr (Or.inr (Or.inl (by omega)))⟩
  · exact Or.inr (Or.inr ⟨rfl, hdigits, by omega, by omega⟩)

section Runs

variable {os : Os} {p : Process} {E : StartFault → Process → Prop}

theorem wp_optStrtol {s : CString} {Q : Int → Process → Prop} :
    wp (optStrtol os s) Q E p ↔ Q (optValue s) { p with errno := optErrno os s } := by
  unfold optStrtol
  rw [wp_bind, setErrno, wp_modify]
  unfold optErrno optValue
  rcases strtol_cases os s with ⟨l, e, heq, he, hrefused⟩ | ⟨heq, hrefused⟩ |
      ⟨heq, hdigits, hmin, hmax⟩
  · rw [heq, if_pos hrefused]
    simp only [wp_bind, setErrno, wp_modify, wp_gets]
    rw [if_pos (Or.inl he)]
    rfl
  · rw [heq, if_pos hrefused]
    simp only [wp_bind, wp_gets]
    rw [if_pos (Or.inr (Or.inl trivial))]
    rfl
  · have hiff : (0 ≠ (0 : Errno) ∨ (readNumeral s.chars).value = 0 ∨
        (readNumeral s.chars).value = longMin ∨ (readNumeral s.chars).value = longMax) ↔
        Refused s := by
      unfold Refused
      constructor
      · rintro (h | h | h | h)
        · exact absurd rfl h
        · exact Or.inr (Or.inl h)
        · exact Or.inr (Or.inr (Or.inl (by omega)))
        · exact Or.inr (Or.inr (Or.inr (by omega)))
      · rintro (h | h | h | h)
        · exact absurd h hdigits
        · exact Or.inr (Or.inl h)
        · exact Or.inr (Or.inr (Or.inl (by omega)))
        · exact Or.inr (Or.inr (Or.inr (by omega)))
    rw [heq]
    simp only [wp_bind, wp_gets]
    by_cases hrefused : Refused s
    · rw [if_pos (hiff.mpr hrefused), if_pos hrefused]
      rfl
    · rw [if_neg (mt hiff.mp hrefused), if_neg hrefused]
      rfl

/-- The options taken in turn. -/
def settingsOf : List Opt → Settings → Option Settings
  | [], o => some o
  | .rootDir arg :: opts, o => settingsOf opts { o with rootDir := some arg }
  | .uname arg :: opts, o => settingsOf opts { o with uname := some arg }
  | .gname arg :: opts, o => settingsOf opts { o with gname := some arg }
  | .srvname arg :: opts, o => settingsOf opts { o with srvname := some arg }
  | .sockdir arg :: opts, o => settingsOf opts { o with sockdir := arg }
  | .maxfiles arg :: opts, o => settingsOf opts { o with maxfiles := optValue arg }
  | .timeout arg :: opts, o => settingsOf opts { o with fdTimeoutMs := optValue arg }
  | .sync :: opts, o => settingsOf opts { o with doSync := true }
  | .daemonise :: opts, o => settingsOf opts { o with daemonise := true }
  | .unknown :: _, _ => none

/-- The loop over the options changes `errno` only. -/
theorem wp_parseOptions {Q : Option Settings → Process → Prop} (opts : List Opt) (o : Settings)
    (h : ∀ e, Q (settingsOf opts o) { p with errno := e }) :
    wp (parseOptions os opts o) Q E p := by
  induction opts generalizing o p with
  | nil => exact h p.errno
  | cons opt opts ih =>
      cases opt with
      | maxfiles arg =>
          rw [parseOptions, wp_bind, wp_optStrtol]
          exact ih _ h
      | timeout arg =>
          rw [parseOptions, wp_bind, wp_optStrtol]
          exact ih _ h
      | unknown => exact h p.errno
      | rootDir arg => exact ih _ h
      | uname arg => exact ih _ h
      | gname arg => exact ih _ h
      | srvname arg => exact ih _ h
      | sockdir arg => exact ih _ h
      | sync => exact ih _ h
      | daemonise => exact ih _ h

/-- The argument of the last option of a kind. -/
def lastArg (f : Opt → Option CString) : List Opt → Option CString
  | [] => none
  | opt :: opts => (lastArg f opts).or (f opt)

def Opt.maxfilesArg : Opt → Option CString
  | .maxfiles arg => some arg
  | _ => none

def Opt.timeoutArg : Opt → Option CString
  | .timeout arg => some arg
  | _ => none

/-- The last option of a kind counts. -/
theorem settingsOf_numbers {opts : List Opt} {o o' : Settings} (h : settingsOf opts o = some o') :
    o'.maxfiles = (lastArg Opt.maxfilesArg opts).elim o.maxfiles optValue ∧
      o'.fdTimeoutMs = (lastArg Opt.timeoutArg opts).elim o.fdTimeoutMs optValue := by
  induction opts generalizing o with
  | nil =>
      cases h
      exact ⟨rfl, rfl⟩
  | cons opt opts ih =>
      cases opt with
      | unknown => cases h
      | maxfiles arg =>
          obtain ⟨hn, ht⟩ := ih h
          rw [hn, ht, lastArg, lastArg]
          exact ⟨by cases lastArg Opt.maxfilesArg opts <;> rfl, by
            cases lastArg Opt.timeoutArg opts <;> rfl⟩
      | timeout arg =>
          obtain ⟨hn, ht⟩ := ih h
          rw [hn, ht, lastArg, lastArg]
          exact ⟨by cases lastArg Opt.maxfilesArg opts <;> rfl, by
            cases lastArg Opt.timeoutArg opts <;> rfl⟩
      | rootDir arg | uname arg | gname arg | srvname arg | sockdir arg | sync | daemonise =>
          obtain ⟨hn, ht⟩ := ih h
          rw [hn, ht, lastArg, lastArg]
          exact ⟨by cases lastArg Opt.maxfilesArg opts <;> rfl, by
            cases lastArg Opt.timeoutArg opts <;> rfl⟩

end Runs

end Sendfiled.Startup
