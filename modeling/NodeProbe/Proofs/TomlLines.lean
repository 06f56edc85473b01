import Mathlib.Tactic.SplitIfs
import NodeProbe.Proofs.Numerals
import NodeProbe.Proofs.TomlStrings
import NodeProbe.Toml.Reader
import NodeProbe.Toml.Writer

/-!
# Documents of plain lines

A document whose lines are blank, open a table, or assign a string, a size or a truth value to a
bare key is read as these lines say.
-/
namespace NodeProbe.Toml

open Number Text

/-! ## Sizes -/

/-- Only zero begins with a zero. -/
theorem toDigits_leading_zero {n : Nat} {digits : List Char}
    (h : Nat.toDigits 10 n = '0' :: digits) : digits = [] := by
  induction n using Nat.strongRecOn generalizing digits with
  | ind n ih =>
    by_cases hsmall : n < 10
    · rw [Nat.toDigits_of_lt_base hsmall] at h
      exact (List.cons.inj h).2.symm
    · rw [Nat.toDigits_of_base_le (by decide) (by omega)] at h
      cases hhigh : Nat.toDigits 10 (n / 10) with
      | nil => exact absurd hhigh Nat.toDigits_ne_nil
      | cons c more =>
        rw [hhigh, List.cons_append, List.cons.injEq] at h
        obtain ⟨rfl, -⟩ := h
        have hmore := ih (n / 10) (by omega) hhigh
        rw [hmore] at hhigh
        have hzero := Nat.ofDigitChars_toDigits (b := 10) (n := n / 10) (by decide) (by decide)
        rw [hhigh] at hzero
        change 0 = n / 10 at hzero
        omega

section Digits

variable {digits : List Char} (hdigits : ∀ c ∈ digits, c.isDigit = true)
include hdigits

/-- Behind some digits there is a digit or the end of the line. -/
theorem fixedDigits_behind {count least most n : Nat} {rest behind : List Char}
    (h : fixedDigits count least most (digits ++ '\n' :: rest) = some (n, behind)) :
    ∃ c more, behind = c :: more ∧ (c.isDigit = true ∨ c = '\n') := by
  unfold fixedDigits at h
  dsimp only at h
  split_ifs at h with hfixed
  obtain ⟨-, hall, -, -⟩ := hfixed
  cases h
  rcases Nat.lt_or_ge digits.length count with hlt | hle
  · have hend : '\n' ∈ (digits ++ '\n' :: rest).take count := by
      rw [List.take_append, List.mem_append]
      right
      obtain ⟨k, hk⟩ : ∃ k, count - digits.length = k + 1 := ⟨count - digits.length - 1, by omega⟩
      rw [hk]
      exact List.mem_cons_self
    cases List.all_eq_true.mp hall '\n' hend
  · rw [List.drop_append_of_le_length hle]
    cases hdrop : digits.drop count with
    | nil => exact ⟨'\n', rest, rfl, .inr rfl⟩
    | cons c more =>
      have hmem : c ∈ digits := List.mem_of_mem_drop (hdrop ▸ List.mem_cons_self)
      exact ⟨c, _, rfl, .inl (hdigits c hmem)⟩

theorem dropMoment_digits (rest : List Char) : dropMoment (digits ++ '\n' :: rest) = none := by
  have hexpect (sign : Char) {count least most n : Nat} {behind : List Char}
      (h : fixedDigits count least most (digits ++ '\n' :: rest) = some (n, behind))
      (hsign : sign.isDigit = false) (hend : sign ≠ '\n') : expect sign behind = none := by
    obtain ⟨c, more, rfl, hc⟩ := fixedDigits_behind hdigits h
    refine if_neg ?_
    rintro rfl
    rcases hc with hc | hc
    · rw [hsign] at hc
      cases hc
    · exact hend hc
  have hdate : dropDate (digits ++ '\n' :: rest) = none := by
    unfold dropDate
    cases h : fixedDigits 4 0 9999 (digits ++ '\n' :: rest) with
    | none => rfl
    | some p =>
      have hnone := hexpect '-' h (by decide) (by decide)
      simp [hnone]
  have htime : dropTime (digits ++ '\n' :: rest) = none := by
    unfold dropTime
    cases h : fixedDigits 2 0 23 (digits ++ '\n' :: rest) with
    | none => rfl
    | some p =>
      have hnone := hexpect ':' h (by decide) (by decide)
      simp [hnone]
  unfold dropMoment
  rw [hdate]
  exact htime

theorem moreDigits_digits (rest : List Char) :
    moreDigits Char.isDigit (digits ++ '\n' :: rest) = (digits, '\n' :: rest) := by
  induction digits with
  | nil => rfl
  | cons c digits ih =>
    obtain ⟨hc, hdigits⟩ := List.forall_mem_cons.mp hdigits
    rw [List.cons_append, moreDigits]
    · rw [if_pos hc, ih hdigits]
    · rintro _ _ rfl
      cases hc

end Digits

theorem readNumber_digits {c : Char} {digits : List Char} (hc : c.isDigit = true)
    (hdigits : ∀ d ∈ digits, d.isDigit = true) (hzero : c = '0' → digits = [])
    (hrange : Nat.ofDigitChars 10 (c :: digits) 0 ≤ maxInt64) (rest : List Char) :
    readNumber (c :: digits ++ '\n' :: rest) =
      some (.integer (.ofInt (Nat.ofDigitChars 10 (c :: digits) 0 : Nat)), '\n' :: rest) := by
  have hsecond {x : Char} {more : List Char} (hx : x ≠ '\n') :
      c :: digits ++ '\n' :: rest ≠ '0' :: x :: more := by
    intro heq
    obtain ⟨rfl, htail⟩ := List.cons.inj heq
    rw [hzero rfl] at htail
    exact hx (List.cons.inj htail).1.symm
  have hsign : splitSign (c :: digits ++ '\n' :: rest) = (false, c :: digits ++ '\n' :: rest) := by
    rw [List.cons_append, splitSign]
    · exact fun _ => cons_ne_cons_of_test hc rfl _ _
    · exact fun _ => cons_ne_cons_of_test hc rfl _ _
  have hread : decimalDigits (c :: digits ++ '\n' :: rest) = some (c :: digits, '\n' :: rest) := by
    by_cases h : c = '0'
    · rw [h, hzero h]
      rfl
    · rw [List.cons_append, decimalDigits, someDigits, if_pos hc, moreDigits_digits hdigits]
      exact fun _ heq => h (List.cons.inj heq).1
  have hin : inRange? (Nat.ofDigitChars 10 (c :: digits) 0 : Nat) =
      some (.ofInt (Nat.ofDigitChars 10 (c :: digits) 0 : Nat)) := by
    refine if_pos ⟨?_, ?_⟩
    · unfold minInt64
      omega
    · omega
  unfold readNumber
  rw [hsign]
  dsimp only
  split
  case h_1 | h_2 | h_3 => exact absurd ‹_› (hsecond (by decide))
  case h_4 | h_5 => exact absurd ‹_› (cons_ne_cons_of_test hc rfl _ _)
  case h_6 =>
    rw [hread, Option.bind_some]
    dsimp only
    rw [if_neg Bool.false_ne_true, hin]
    rfl

theorem readNumber_toDigits {n : Nat} (h : n ≤ maxInt64) (rest : List Char) :
    readNumber (Nat.toDigits 10 n ++ '\n' :: rest) = some (.integer (.ofInt n), '\n' :: rest) := by
  have hvalue := Nat.ofDigitChars_toDigits (b := 10) (n := n) (by decide) (by decide)
  have hall : ∀ c ∈ Nat.toDigits 10 n, c.isDigit = true := fun c => toDigits_isDigit
  cases hdigits : Nat.toDigits 10 n with
  | nil => exact absurd hdigits Nat.toDigits_ne_nil
  | cons c digits =>
    rw [hdigits] at hvalue hall
    obtain ⟨hc, hmore⟩ := List.forall_mem_cons.mp hall
    have hzero : c = '0' → digits = [] := by
      rintro rfl
      exact toDigits_leading_zero hdigits
    rw [readNumber_digits hc hmore hzero (by rwa [hvalue]), hvalue]

/-! ## Settings -/

/-- What a setting is read as. -/
def settingValue : Setting → Toml
  | .text s => .string s
  | .size n => .integer n.toInt64
  | .flag b => .boolean b

theorem writeString_head (cs : List Char) :
    ∃ c w, writeString cs = c :: w ∧ (c = '"' ∨ c = '\'') := by
  unfold writeString
  cases StringForm.of cs with
  | basic | basicLines => exact ⟨'"', _, rfl, .inl rfl⟩
  | literal | literalLines => exact ⟨'\'', _, rfl, .inr rfl⟩

theorem toDigits_head (n : Nat) : ∃ c w, Nat.toDigits 10 n = c :: w ∧ c.isDigit = true := by
  cases hdigits : Nat.toDigits 10 n with
  | nil => exact absurd hdigits Nat.toDigits_ne_nil
  | cons c w => exact ⟨c, w, rfl, toDigits_isDigit (hdigits ▸ List.mem_cons_self)⟩

def opensSetting (c : Char) : Bool := c.isDigit || ['"', '\'', 't', 'f'].contains c

theorem writeSetting_head (setting : Setting) :
    ∃ c w, writeSetting setting = c :: w ∧ opensSetting c = true := by
  cases setting with
  | text s =>
    obtain ⟨c, w, hw, hc⟩ := writeString_head s.toList
    exact ⟨c, w, hw, by rcases hc with rfl | rfl <;> rfl⟩
  | size n =>
    obtain ⟨c, w, hw, hc⟩ := toDigits_head n.toNat
    exact ⟨c, w, hw, by rw [opensSetting, hc, Bool.true_or]⟩
  | flag b =>
    cases b with
    | true => exact ⟨'t', _, rfl, rfl⟩
    | false => exact ⟨'f', _, rfl, rfl⟩

theorem readScalar_quote {c : Char} (hc : c = '"' ∨ c = '\'') (w : List Char) :
    readScalar (c :: w) =
      (readString (c :: w)).map fun (text, rest) => (.string (.ofList text), rest) := by
  rcases hc with rfl | rfl <;> rfl

theorem readScalar_digit {c : Char} (hc : c.isDigit = true) (w : List Char) :
    readScalar (c :: w) = readNumeric (c :: w) := by
  unfold readScalar
  split
  case h_5 => rfl
  all_goals
    obtain ⟨rfl, -⟩ := List.cons.inj ‹_›
    cases hc

/-- A setting is read up to the end of its line. -/
theorem readScalar_written {setting : Setting} (h : setting.fits = true) (rest : List Char) :
    readScalar (writeSetting setting ++ '\n' :: rest) =
      some (settingValue setting, '\n' :: rest) := by
  cases setting with
  | text s =>
    have hread : readString (writeString s.toList ++ '\n' :: rest) =
        some (s.toList, '\n' :: rest) :=
      readString_writeString s.toList (fun h => by cases h) (fun h => by cases h)
    obtain ⟨c, w, hw, hc⟩ := writeString_head s.toList
    show readScalar (writeString s.toList ++ '\n' :: rest) = _
    rw [hw] at hread ⊢
    rw [List.cons_append, readScalar_quote hc, ← List.cons_append, hread, Option.map_some]
    dsimp only
    rw [String.ofList_toList]
    rfl
  | size n =>
    obtain ⟨c, w, hw, hc⟩ := toDigits_head n.toNat
    have hmoment : dropMoment (Nat.toDigits 10 n.toNat ++ '\n' :: rest) = none :=
      dropMoment_digits (fun _ => toDigits_isDigit) rest
    have hread := readNumber_toDigits (of_decide_eq_true h) rest
    rw [Int64.ofInt_eq_ofNat, ← UInt64.toInt64_ofNat', UInt64.ofNat_toNat] at hread
    show readScalar (Nat.toDigits 10 n.toNat ++ '\n' :: rest) = _
    rw [hw] at hread hmoment ⊢
    rw [List.cons_append, readScalar_digit hc, ← List.cons_append, readNumeric, hmoment]
    exact hread
  | flag b => cases b <;> rfl

theorem readValue_written {setting : Setting} (h : setting.fits = true) (depth : Nat) (rest : List Char) :
    readValue depth (writeSetting setting ++ '\n' :: rest) =
      some (settingValue setting, '\n' :: rest) := by
  cases depth with
  | zero => exact readScalar_written h rest
  | succ depth =>
    obtain ⟨c, w, hw, hc⟩ := writeSetting_head setting
    have hread := readScalar_written h rest
    rw [hw] at hread ⊢
    rw [List.cons_append, readValue]
    · exact hread
    · exact fun _ => cons_ne_cons_of_test hc rfl _ _
    · exact fun _ => cons_ne_cons_of_test hc rfl _ _

/-! ## Lines -/

namespace Line

def statement? : Line → Option Statement
  | blank => none
  | header key => some (.openTable [] key)
  | assign key setting => some (.assign [] key (settingValue setting))

/-- A line that is read as it was meant. -/
def WellFormed : Line → Prop
  | blank => True
  | header key => BareKey key
  | assign key setting => BareKey key ∧ setting.fits = true

end Line

theorem bareKey_head {key : String} (h : BareKey key) :
    ∃ c w, key.toList = c :: w ∧ isBareKey c = true := by
  obtain ⟨hnonempty, hbare⟩ := h
  cases hkey : key.toList with
  | nil =>
    rw [hkey] at hnonempty
    cases hnonempty
  | cons c w =>
    rw [hkey, List.all_cons, Bool.and_eq_true] at hbare
    exact ⟨c, w, rfl, hbare.1⟩

theorem skipGap_of_not_isGap {c : Char} (hc : isGap c = false) (w : List Char) :
    skipGap (c :: w) = c :: w := by
  rw [skipGap, List.dropWhile_cons_of_neg (by rw [hc]; exact Bool.false_ne_true)]

theorem isGap_of_test {p : Char → Bool} {c : Char} (hc : p c = true) (hspace : p ' ' = false)
    (htab : p '\t' = false) : isGap c = false := by
  rw [isGap, Bool.or_eq_false_iff, beq_eq_false_iff_ne, beq_eq_false_iff_ne]
  exact ⟨ne_of_test hc hspace, ne_of_test hc htab⟩

theorem readKey_bare {key : String} (h : BareKey key) {c : Char} (hc : isBareKey c = false)
    (rest : List Char) : readKey (key.toList ++ c :: rest) = some (key, c :: rest) := by
  obtain ⟨d, w, hkey, hd⟩ := bareKey_head h
  have hall : ∀ d ∈ key.toList, isBareKey d = true := List.all_eq_true.mp h.bare
  have htake : (key.toList ++ c :: rest).takeWhile isBareKey = key.toList := by
    rw [List.takeWhile_append_of_pos hall, List.takeWhile_cons_of_neg (by simp [hc]),
      List.append_nil]
  have hdrop : (key.toList ++ c :: rest).dropWhile isBareKey = c :: rest := by
    rw [List.dropWhile_append_of_pos hall, List.dropWhile_cons_of_neg (by simp [hc])]
  unfold readKey
  dsimp only
  rw [htake, hdrop, h.nonempty, String.ofList_toList]
  split
  · rename_i heq
    rw [hkey] at heq
    exact absurd heq (cons_ne_cons_of_test hd rfl _ _)
  · rename_i heq
    rw [hkey] at heq
    exact absurd heq (cons_ne_cons_of_test hd rfl _ _)
  · rfl

/-- A bare key alone in front of a sign that ends it, with gaps or without. -/
theorem readPath_bare {key : String} (h : BareKey key) {c stop : Char} {rest behind : List Char}
    (hc : isBareKey c = false) (hskip : skipGap (c :: rest) = stop :: behind) (hend : stop ≠ '.') :
    readPath pathLimit (key.toList ++ c :: rest) = some (([], key), stop :: behind) := by
  obtain ⟨d, w, hkey, hd⟩ := bareKey_head h
  have hskip' : skipGap (key.toList ++ c :: rest) = key.toList ++ c :: rest := by
    rw [hkey]
    exact skipGap_of_not_isGap (isGap_of_test hd rfl rfl) _
  unfold pathLimit readPath
  rw [hskip', readKey_bare h hc, Option.bind_some]
  dsimp only
  rw [hskip]
  split
  · exact absurd (List.cons.inj ‹_›).1 hend
  · rfl

/-- A key and its setting are read up to the end of their line. -/
theorem readPair_written {key : String} (hbare : BareKey key) {setting : Setting}
    (hfits : setting.fits = true) (rest : List Char) :
    readPair (readValue depthLimit)
        (key.toList ++ ' ' :: '=' :: ' ' :: (writeSetting setting ++ '\n' :: rest)) =
      some ((([], key), settingValue setting), '\n' :: rest) := by
  obtain ⟨c, w, hw, hc⟩ := writeSetting_head setting
  have hpath : readPath pathLimit
      (key.toList ++ ' ' :: '=' :: ' ' :: (writeSetting setting ++ '\n' :: rest)) =
      some (([], key), '=' :: ' ' :: (writeSetting setting ++ '\n' :: rest)) :=
    readPath_bare hbare rfl rfl (by decide)
  have hskip : skipGap (' ' :: (writeSetting setting ++ '\n' :: rest)) =
      writeSetting setting ++ '\n' :: rest := by
    rw [skipGap, List.dropWhile_cons_of_pos rfl, hw]
    exact skipGap_of_not_isGap (isGap_of_test hc rfl rfl) _
  rw [readPair, hpath, Option.bind_some]
  show (readValue depthLimit (skipGap (' ' :: _))).map _ = _
  rw [hskip, readValue_written hfits]
  rfl

/-- The statement of a line is read up to the end of the line. -/
theorem readStatement_written {line : Line} (h : line.WellFormed) {statement : Statement}
    (hstatement : line.statement? = some statement) (rest : List Char) :
    readStatement (line.written ++ '\n' :: rest) = some (statement, '\n' :: rest) := by
  cases line with
  | blank => cases hstatement
  | header key =>
    cases hstatement
    obtain ⟨d, w, hkey, hd⟩ := bareKey_head h
    have hpath : readPath pathLimit (key.toList ++ ']' :: '\n' :: rest) =
        some (([], key), ']' :: '\n' :: rest) := readPath_bare h rfl rfl (by decide)
    have hline : (Line.header key).written ++ '\n' :: rest =
        '[' :: (key.toList ++ ']' :: '\n' :: rest) := by
      simp [Line.written]
    rw [hline, readStatement, hpath]
    · rfl
    · rw [hkey]
      exact fun _ => cons_ne_cons_of_test hd rfl _ _
  | assign key setting =>
    cases hstatement
    obtain ⟨hbare, hfits⟩ := h
    obtain ⟨d, w, hkey, hd⟩ := bareKey_head hbare
    have hline : (Line.assign key setting).written ++ '\n' :: rest =
        key.toList ++ ' ' :: '=' :: ' ' :: (writeSetting setting ++ '\n' :: rest) := by
      simp [Line.written]
    rw [hline, readStatement, readPair_written hbare hfits]
    · rfl
    · rw [hkey]
      exact fun _ => cons_ne_cons_of_test hd rfl _ _
    · rw [hkey]
      exact fun _ => cons_ne_cons_of_test hd rfl _ _

/-- A line with a statement does not begin like one without. -/
theorem Line.written_head {line : Line} (h : line.WellFormed) {statement : Statement}
    (hstatement : line.statement? = some statement) :
    ∃ c w, line.written = c :: w ∧ isGap c = false ∧ c ∉ ['#', '\n', '\r'] := by
  cases line with
  | blank => cases hstatement
  | header key => exact ⟨'[', _, rfl, rfl, by decide⟩
  | assign key setting =>
    obtain ⟨d, w, hkey, hd⟩ := bareKey_head h.1
    refine ⟨d, _, by rw [Line.written, hkey]; rfl, isGap_of_test hd rfl rfl, ?_⟩
    simp [ne_of_test hd (x := '#') rfl, ne_of_test hd (x := '\n') rfl,
      ne_of_test hd (x := '\r') rfl]

theorem endLine_eq_none {c : Char} (hgap : isGap c = false) (hc : c ∉ ['#', '\n', '\r'])
    (w : List Char) : endLine (c :: w) = none := by
  simp only [List.mem_cons, List.not_mem_nil, or_false, not_or] at hc
  obtain ⟨hhash, hnewline, hreturn⟩ := hc
  have hcomment : skipComment (c :: w) = c :: w := by
    rw [skipComment]
    exact fun _ heq => hhash (List.cons.inj heq).1
  rw [endLine, skipGap_of_not_isGap hgap, hcomment]
  dsimp only
  rw [newline?]
  · exact fun _ heq => hnewline (List.cons.inj heq).1
  · exact fun _ heq => hreturn (List.cons.inj heq).1

/-- A well-formed line adds its statement, if it has one, in front of those behind it. -/
theorem readStatements_line {line : Line} (h : line.WellFormed) (lines : Nat) (rest : List Char) :
    readStatements (lines + 1) (line.written ++ '\n' :: rest) =
      (readStatements lines rest).map (line.statement?.toList ++ ·) := by
  cases hstatement : line.statement? with
  | none =>
    cases line with
    | blank => exact Option.map_id'.symm
    | header _ | assign _ _ => cases hstatement
  | some statement =>
    obtain ⟨c, w, hw, hgap, hc⟩ := Line.written_head h hstatement
    have hread := readStatement_written h hstatement rest
    rw [hw] at hread ⊢
    rw [List.cons_append] at hread ⊢
    rw [readStatements, skipGap_of_not_isGap hgap]
    dsimp only
    rw [endLine_eq_none hgap hc, hread]
    rfl

/-- A document of such lines is read as the statements on them, in order. -/
theorem readStatements_lines {lines : List Line} (h : ∀ line ∈ lines, line.WellFormed) {limit : Nat}
    (hlimit : lines.length ≤ limit) :
    readStatements limit (lines.flatMap (·.written ++ ['\n'])) =
      some (lines.filterMap Line.statement?) := by
  induction lines generalizing limit with
  | nil => cases limit <;> rfl
  | cons line lines ih =>
    obtain ⟨hline, hlines⟩ := List.forall_mem_cons.mp h
    rw [List.length_cons] at hlimit
    obtain ⟨limit, rfl⟩ : ∃ k, limit = k + 1 := ⟨limit - 1, by omega⟩
    rw [List.flatMap_cons, List.append_assoc, List.singleton_append, readStatements_line hline,
      ih hlines (by omega), List.filterMap_cons]
    cases line.statement? <;> rfl

theorem length_le_flatMap_written (lines : List Line) :
    lines.length ≤ (lines.flatMap (·.written ++ ['\n'])).length := by
  induction lines with
  | nil => exact Nat.le_refl 0
  | cons line lines ih =>
    rw [List.flatMap_cons, List.length_append, List.length_append, List.length_singleton,
      List.length_cons]
    omega

theorem dropMark_lines {lines : List Line} (h : ∀ line ∈ lines, line.WellFormed) :
    dropMark (lines.flatMap (·.written ++ ['\n'])) = lines.flatMap (·.written ++ ['\n']) := by
  cases lines with
  | nil => rfl
  | cons line lines =>
    cases line with
    | blank => rfl
    | header key => rfl
    | assign key setting =>
      obtain ⟨d, w, hkey, hd⟩ := bareKey_head (h _ List.mem_cons_self).1
      rw [List.flatMap_cons, Line.written, hkey]
      simp only [List.cons_append]
      rw [dropMark]
      exact fun _ => cons_ne_cons_of_test hd rfl _ _

theorem read_lines {lines : List Line} (h : ∀ line ∈ lines, line.WellFormed) :
    read (.ofList (lines.flatMap (·.written ++ ['\n']))) =
      build (lines.filterMap Line.statement?) [] [] := by
  have hstatements := readStatements_lines h (length_le_flatMap_written lines)
  unfold read
  dsimp only
  rw [String.toList_ofList, dropMark_lines h, hstatements]
  rfl

end NodeProbe.Toml
