import Mathlib.Data.Int.Notation
import Mathlib.Data.List.TakeWhile
import Mathlib.Data.Nat.Notation

/-!
# Scanning Formatted Input

`sscanf` of the C library, for formats of `%u` conversions, white space and characters that
stand for themselves. A scan obeys the directives of the format in order and stops at the
first that fails; what was converted until then has been stored. It fails by an input failure
where the input is at its end, and by a matching failure elsewhere.

The value of a conversion is the integer as it is written, with its sign. C leaves undefined
what is stored of a value out of the range of an `unsigned int`.

## Main results

* `scan_unsigned_toString`: a conversion reads back a number that was printed.
* `scan_printed`: **numbers printed with separators are read back**, by a format that
  `Separates` in the same places.
* `scan_printed_of_ne`: where the separator is another, only the first number is read.
-/

set_option autoImplicit false

namespace Scanf

/-- A directive of a format. -/
inductive Directive
  /-- `%u`. -/
  | unsigned
  /-- White space, which matches any amount of white space. -/
  | space
  /-- A character that is not white space and not `%`. -/
  | literal (c : Char)
  deriving DecidableEq, Repr

/-- What a scan has converted, and whether an input failure ended it. -/
structure Scanned where
  values : List ℤ
  inputFailure : Bool
  deriving DecidableEq, Repr

/-- `isspace` in the locale `"C"`. -/
def isSpace (c : Char) : Bool :=
  c = ' ' || c = '\t' || c = '\n' || c = '\x0b' || c = '\x0c' || c = '\r'

/-- What is left when the blanks at the front are skipped. -/
def skipSpace (s : List Char) : List Char :=
  s.dropWhile isSpace

/-- The digits at the front, and their value. -/
def readDigits (s : List Char) : Option (ℕ × List Char) :=
  if s.takeWhile Char.isDigit = [] then none
  else some (Nat.ofDigitChars 10 (s.takeWhile Char.isDigit) 0, s.dropWhile Char.isDigit)

/-- An integer as `strtoul` reads it: digits, after a sign or none. -/
def readInt : List Char → Option (ℤ × List Char)
  | [] => none
  | c :: s =>
      if c = '-' then (readDigits s).map fun (n, rest) => (-(n : ℤ), rest)
      else if c = '+' then (readDigits s).map fun (n, rest) => ((n : ℤ), rest)
      else (readDigits (c :: s)).map fun (n, rest) => ((n : ℤ), rest)

/-- Obey the directives of a format. -/
def scan : List Directive → List Char → Scanned
  | [], _ => ⟨[], false⟩
  | .unsigned :: ds, s =>
      if skipSpace s = [] then ⟨[], true⟩
      else
        match readInt (skipSpace s) with
        | none => ⟨[], false⟩
        | some (v, rest) => ⟨v :: (scan ds rest).values, (scan ds rest).inputFailure⟩
  | .space :: ds, s => scan ds (skipSpace s)
  | .literal _ :: _, [] => ⟨[], true⟩
  | .literal c :: ds, d :: s => if d = c then scan ds s else ⟨[], false⟩

/-- What `sscanf` returns: the number of conversions, or `EOF` where the input ended before
the first. -/
def Scanned.result (x : Scanned) : ℤ :=
  if x.values = [] ∧ x.inputFailure then -1 else x.values.length

/-! ### Numbers -/

/-- The input does not go on with a digit. -/
def NoDigit (s : List Char) : Prop :=
  ∀ c ∈ s.head?, c.isDigit = false

variable {s : List Char}

/-- The digits end where no digit follows. -/
theorem takeWhile_append_noDigit {ds : List Char} (hds : ∀ c ∈ ds, c.isDigit = true)
    (hs : NoDigit s) :
    (ds ++ s).takeWhile Char.isDigit = ds ∧ (ds ++ s).dropWhile Char.isDigit = s := by
  rw [List.takeWhile_append_of_pos hds, List.dropWhile_append_of_pos hds]
  cases s with
  | nil => simp
  | cons c s =>
      have hc : c.isDigit = false := hs c rfl
      simp [hc]

/-- The digits of a number are read up to something else. -/
theorem readDigits_toDigits (n : ℕ) (hs : NoDigit s) :
    readDigits (Nat.toDigits 10 n ++ s) = some (n, s) := by
  have hdigit : ∀ c ∈ Nat.toDigits 10 n, c.isDigit = true := fun c hc =>
    Nat.isDigit_of_mem_toDigits (by decide) (by decide) hc
  obtain ⟨htake, hdrop⟩ := takeWhile_append_noDigit hdigit hs
  rw [readDigits, htake, hdrop, if_neg Nat.toDigits_ne_nil, Nat.ofDigitChars_ten_toDigits]

/-- A digit is neither white space nor a sign. -/
theorem of_isDigit {c : Char} (hc : c.isDigit = true) :
    isSpace c = false ∧ c ≠ '-' ∧ c ≠ '+' := by
  refine ⟨?_, ?_, ?_⟩
  · rw [Bool.eq_false_iff]
    intro hspace
    simp only [isSpace, Bool.or_eq_true, decide_eq_true_eq] at hspace
    rcases hspace with ((((rfl | rfl) | rfl) | rfl) | rfl) | rfl <;> simp at hc
  · rintro rfl
    simp at hc
  · rintro rfl
    simp at hc

/-- What starts with a digit has no white space to skip and no sign. -/
theorem readInt_skipSpace {c : Char} (hc : c.isDigit = true) :
    skipSpace (c :: s) = c :: s ∧
      readInt (c :: s) = (readDigits (c :: s)).map fun (n, rest) => ((n : ℤ), rest) := by
  obtain ⟨hspace, hminus, hplus⟩ := of_isDigit hc
  constructor
  · rw [skipSpace, List.dropWhile_cons_of_neg (by simp [hspace])]
  · rw [readInt, if_neg hminus, if_neg hplus]

/-- A conversion reads back what was printed, up to something else than a digit. -/
theorem scan_unsigned_toString (n : ℕ) (hs : NoDigit s) (ds : List Directive) :
    scan (.unsigned :: ds) ((toString n).toList ++ s) =
      ⟨n :: (scan ds s).values, (scan ds s).inputFailure⟩ := by
  have hread := readDigits_toDigits n hs
  rw [Nat.toString_eq_repr, Nat.toList_repr]
  cases hcs : Nat.toDigits 10 n with
  | nil => exact absurd hcs Nat.toDigits_ne_nil
  | cons c cs =>
      have hc : c.isDigit = true :=
        Nat.isDigit_of_mem_toDigits (by decide) (by decide) (hcs ▸ List.mem_cons_self)
      rw [hcs, List.cons_append] at hread
      obtain ⟨hskip, hint⟩ := readInt_skipSpace (s := cs ++ s) hc
      rw [List.cons_append, scan, hskip, hint, hread]
      simp

/-! ### Separators -/

/-- A literal consumes itself. -/
theorem scan_literal (c : Char) (ds : List Directive) (s : List Char) :
    scan (.literal c :: ds) (c :: s) = scan ds s := by
  rw [scan, if_pos rfl]

/-- Another character is a matching failure, and the rest of the format is not looked at. -/
theorem scan_literal_of_ne {c d : Char} (h : d ≠ c) (ds : List Directive) (s : List Char) :
    scan (.literal c :: ds) (d :: s) = ⟨[], false⟩ := by
  rw [scan, if_neg h]

/-- After the blanks there is no blank to skip. -/
theorem skipSpace_skipSpace (s : List Char) : skipSpace (skipSpace s) = skipSpace s :=
  List.dropWhile_eq_self_iff.mpr fun hl => List.dropWhile_get_zero_not _ s hl

/-- Before a conversion the directive `d` reads over the separator `sep`. -/
structure Separates (d : Directive) (sep : Char) : Prop where
  not_isDigit : sep.isDigit = false
  scan_cons : ∀ ds s, scan (d :: .unsigned :: ds) (sep :: s) = scan (.unsigned :: ds) s

/-- A character that is no digit separates two numbers under its own directive. -/
theorem separates_literal {c : Char} (hc : c.isDigit = false) : Separates (.literal c) c :=
  ⟨hc, fun _ _ => scan_literal c _ _⟩

/-- A blank separates two numbers under the directive for blanks. -/
theorem separates_space {c : Char} (hc : isSpace c = true) : Separates .space c where
  not_isDigit := by
    rw [Bool.eq_false_iff]
    intro hdigit
    rw [(of_isDigit hdigit).1] at hc
    exact absurd hc (by decide)
  scan_cons ds s := by
    have hskip : skipSpace (c :: s) = skipSpace s := List.dropWhile_cons_of_pos hc
    rw [scan, scan, scan, hskip, skipSpace_skipSpace]

/-! ### Round trip -/

/-- A format of one conversion and `n` more, with `d` in between. -/
def format (d : Directive) : ℕ → List Directive
  | 0 => [.unsigned]
  | n + 1 => .unsigned :: d :: format d n

/-- A number and the numbers `ns` in decimal, with `sep` in between. -/
def printed (sep : Char) (n : ℕ) : List ℕ → List Char
  | [] => (toString n).toList
  | m :: ns => (toString n).toList ++ sep :: printed sep m ns

/-- **What was printed is read back.** -/
theorem scan_printed {d : Directive} {sep : Char} (h : Separates d sep) (n : ℕ) (ns : List ℕ) :
    scan (format d ns.length) (printed sep n ns) = ⟨(n :: ns).map fun m : ℕ => (m : ℤ), false⟩ := by
  induction ns generalizing n with
  | nil =>
      have hend : NoDigit [] := by simp [NoDigit]
      have hread := scan_unsigned_toString n hend []
      rw [List.append_nil] at hread
      exact hread
  | cons m ns ih =>
      have hsep : NoDigit (sep :: printed sep m ns) := by simp [NoDigit, h.not_isDigit]
      have hformat : ∃ ds, format d ns.length = .unsigned :: ds := by
        cases ns with
        | nil => exact ⟨_, rfl⟩
        | cons k ks => exact ⟨_, rfl⟩
      obtain ⟨ds, hds⟩ := hformat
      have hnext : scan (d :: format d ns.length) (sep :: printed sep m ns) =
          scan (format d ns.length) (printed sep m ns) := by
        rw [hds, h.scan_cons]
      rw [List.length_cons, format, printed, scan_unsigned_toString n hsep, hnext, ih]
      rfl

/-- A separator that the format does not expect ends the scan after the first number. -/
theorem scan_printed_of_ne {c sep : Char} (h : sep ≠ c) (hsep : sep.isDigit = false) (n m : ℕ)
    (ns : List ℕ) (ds : List Directive) :
    scan (.unsigned :: .literal c :: ds) (printed sep n (m :: ns)) = ⟨[(n : ℤ)], false⟩ := by
  have hstop : NoDigit (sep :: printed sep m ns) := by simp [NoDigit, hsep]
  rw [printed, scan_unsigned_toString n hstop, scan_literal_of_ne h]

end Scanf
