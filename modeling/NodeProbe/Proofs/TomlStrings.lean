import Mathlib.Tactic.SplitIfs
import NodeProbe.Toml.Text
import NodeProbe.Toml.Writer

/-!
# Strings are read back as they were written

A writer picks the form of a string by its contents, and the reader finds out about the form from
the quotes. The escapes of one character are the same in both basic forms; what remains is to see
that no quote of the contents is taken for the end.
-/
namespace NodeProbe.Toml

/-! ## One character -/

/-- The ways to show a character in a basic string, a quote of several lines apart. -/
inductive Escaped (c : Char) : List Char → Prop where
  | letter {l : Char} (h : escapedChar? l = some c) : Escaped c ['\\', l]
  | number {d₁ d₂ d₃ d₄ : Char} (h : hexChar? [d₁, d₂, d₃, d₄] = some c) :
    Escaped c ['\\', 'u', d₁, d₂, d₃, d₄]
  | plain (h : isPlain c = true) (hquote : c ≠ '"') (hslash : c ≠ '\\') : Escaped c [c]

/-- A sign that passes a test is none that fails it. -/
theorem ne_of_test {p : Char → Bool} {c x : Char} (hc : p c = true) (hx : p x = false) : c ≠ x := by
  intro h
  rw [h, hx] at hc
  cases hc

theorem cons_ne_cons_of_test {p : Char → Bool} {c x : Char} (hc : p c = true) (hx : p x = false)
    (w w' : List Char) : c :: w ≠ x :: w' :=
  fun h => ne_of_test hc hx (List.cons.inj h).1

theorem fourDigits_spec : ∀ n < 128,
    (fourDigits n).length = 4 ∧ hexChar? (fourDigits n) = some (Char.ofNat n) := by
  decide +kernel

theorem toNat_lt_of_isControl {c : Char} (h : isControl c = true) : c.toNat < 128 := by
  unfold isControl at h
  simp only [Bool.or_eq_true, Bool.and_eq_true, decide_eq_true_eq, beq_iff_eq] at h
  rcases h with ⟨⟨h, -⟩, -⟩ | rfl
  · have hlt : c.toNat < 32 := h
    omega
  · decide

theorem isPlain_of_not_isControl {c : Char} (h : isControl c = false) (hend : c ≠ '\n') :
    isPlain c = true := by
  unfold isControl at h
  unfold isPlain
  simp only [Bool.or_eq_false_iff, Bool.and_eq_false_iff, decide_eq_false_iff_not,
    beq_eq_false_iff_ne, Decidable.not_not] at h
  simp only [Bool.or_eq_true, Bool.and_eq_true, decide_eq_true_eq, beq_iff_eq]
  obtain ⟨(hge | htab) | hnewline, hdelete⟩ := h
  · exact .inr ⟨Char.not_lt.mp hge, hdelete⟩
  · exact .inl htab
  · exact absurd hnewline hend

/-- Every character is shown by itself or by an escape that stands for it. -/
theorem escape_escaped (c : Char) : Escaped c (escape c) := by
  unfold escape
  split
  case h_8 hend _ _ hquote hslash =>
    split_ifs with hcontrol
    · obtain ⟨hlength, hchar⟩ := fourDigits_spec c.toNat (toNat_lt_of_isControl hcontrol)
      rw [Char.ofNat_toNat] at hchar
      match fourDigits c.toNat, hlength, hchar with
      | [_, _, _, _], _, hchar => exact .number hchar
    · exact .plain (isPlain_of_not_isControl (by simpa using hcontrol) hend) hquote hslash
  all_goals exact .letter rfl

theorem Escaped.head {c : Char} {w : List Char} (h : Escaped c w) (rest : List Char) :
    ∃ x, (w ++ rest).head? = some x ∧ isPlain x = true ∧ x ≠ '"' := by
  cases h with
  | letter _ => exact ⟨'\\', rfl, rfl, by decide⟩
  | number _ => exact ⟨'\\', rfl, rfl, by decide⟩
  | plain hplain hquote _ => exact ⟨c, rfl, hplain, hquote⟩

theorem ne_of_escapedChar? {l c : Char} (h : escapedChar? l = some c) : l ≠ 'u' ∧ l ≠ 'U' := by
  constructor <;> (rintro rfl; cases h)

theorem Escaped.readBasic {c : Char} {w : List Char} (h : Escaped c w) (rest : List Char) :
    readBasic (w ++ rest) = keep c (readBasic rest) := by
  cases h with
  | @letter l h =>
    obtain ⟨hu, hU⟩ := ne_of_escapedChar? h
    show Toml.readBasic ('\\' :: l :: rest) = _
    rw [Toml.readBasic]
    · rw [h]
      rfl
    · simp [hu]
    · simp [hU]
  | number h =>
    show Toml.readBasic ('\\' :: 'u' :: _ :: _ :: _ :: _ :: rest) = _
    rw [Toml.readBasic, h]
    rfl
  | plain h hquote hslash =>
    show Toml.readBasic (c :: rest) = _
    rw [Toml.readBasic]
    · simp [h, hslash]
    all_goals simp [hquote, hslash]

theorem Escaped.readBasicLines {c : Char} {w : List Char} (h : Escaped c w) (rest : List Char) :
    readBasicLines .none (w ++ rest) = keep c (readBasicLines .none rest) := by
  cases h with
  | @letter l h =>
    obtain ⟨hu, hU⟩ := ne_of_escapedChar? h
    show Toml.readBasicLines .none ('\\' :: l :: rest) = _
    rw [Toml.readBasicLines]
    · rw [h]
    all_goals simp [hu, hU]
  | number h =>
    show Toml.readBasicLines .none ('\\' :: 'u' :: _ :: _ :: _ :: _ :: rest) = _
    rw [Toml.readBasicLines, h]
    · rfl
    all_goals simp
  | plain h hquote hslash =>
    show Toml.readBasicLines .none (c :: rest) = _
    rw [Toml.readBasicLines]
    · simp [h, hslash]
    all_goals simp [hquote, hslash, ne_of_test h (x := '\r') rfl]

/-! ## One line -/

theorem readBasic_escape (cs rest : List Char) :
    readBasic (cs.flatMap escape ++ '"' :: rest) = some (cs, rest) := by
  induction cs with
  | nil => rfl
  | cons c cs ih =>
    rw [List.flatMap_cons, List.append_assoc, (escape_escaped c).readBasic, ih]
    rfl

theorem readLiteral_plain {cs : List Char} (hplain : ∀ c ∈ cs, isPlain c = true)
    (hquote : '\'' ∉ cs) (rest : List Char) :
    readLiteral (cs ++ '\'' :: rest) = some (cs, rest) := by
  induction cs with
  | nil => rfl
  | cons c cs ih =>
    rw [List.mem_cons, not_or] at hquote
    rw [List.forall_mem_cons] at hplain
    rw [List.cons_append, readLiteral, if_pos hplain.1, ih hplain.2 hquote.2]
    · rfl
    · exact fun h => hquote.1 h.symm

/-! ## Several lines -/

theorem readBasicLines_newline (rest : List Char) :
    readBasicLines .none ('\n' :: rest) = keep '\n' (readBasicLines .none rest) := by
  rw [readBasicLines]
  · rfl
  all_goals simp

theorem readBasicLines_quote {rest : List Char} (h : ∀ more, rest ≠ '"' :: '"' :: more) :
    readBasicLines .none ('"' :: rest) = keep '"' (readBasicLines .none rest) := by
  rw [readBasicLines]
  · rfl
  all_goals simp [h]

theorem readBasicLines_end {quotes : Nat} (hquotes : quotes ≤ 2) {rest : List Char}
    (h : rest.head? ≠ some '"') :
    readBasicLines .none (List.replicate quotes '"' ++ '"' :: '"' :: '"' :: rest) =
      some (List.replicate quotes '"', rest) := by
  have hrest : ∀ more, rest ≠ '"' :: more := fun more hmore => h (by rw [hmore]; rfl)
  match quotes, hquotes with
  | 0, _ =>
    show readBasicLines .none ('"' :: '"' :: '"' :: rest) = _
    rw [readBasicLines]
    · rfl
    all_goals simp [hrest]
  | 1, _ =>
    show readBasicLines .none ('"' :: '"' :: '"' :: '"' :: rest) = _
    rw [readBasicLines]
    · rfl
    all_goals simp [hrest]
  | 2, _ =>
    show readBasicLines .none ('"' :: '"' :: '"' :: '"' :: '"' :: rest) = _
    rw [readBasicLines]
    · rfl
    all_goals simp

theorem escapeLines_head {quotes : Nat} {c : Char} (h : ¬ (c = '"' ∧ quotes < 2))
    (cs rest : List Char) : (escapeLines quotes (c :: cs) ++ rest).head? ≠ some '"' := by
  rw [escapeLines]
  split_ifs with hend
  · rw [hend]
    exact fun h => by cases h
  · obtain ⟨x, hx, -, hquote⟩ := (escape_escaped c).head (escapeLines 0 cs ++ rest)
    rw [List.append_assoc, hx]
    exact fun h => hquote (Option.some.inj h)

/-- The reader is in front of a quote that stands as it is; `cs` comes behind it. -/
theorem readBasicLines_raw_quote {quotes : Nat} (hquotes : quotes < 2) (cs : List Char)
    {rest : List Char} (h : rest.head? ≠ some '"')
    (ih : readBasicLines .none (escapeLines (quotes + 1) cs ++ '"' :: '"' :: '"' :: rest) =
      some (cs, rest)) :
    readBasicLines .none ('"' :: (escapeLines (quotes + 1) cs ++ '"' :: '"' :: '"' :: rest)) =
      some ('"' :: cs, rest) := by
  have hkeep (hno : ∀ more,
      escapeLines (quotes + 1) cs ++ '"' :: '"' :: '"' :: rest ≠ '"' :: '"' :: more) :
      readBasicLines .none ('"' :: (escapeLines (quotes + 1) cs ++ '"' :: '"' :: '"' :: rest)) =
        some ('"' :: cs, rest) := by
    rw [readBasicLines_quote hno, ih]
    rfl
  cases cs with
  | nil => exact readBasicLines_end (by omega : 1 ≤ 2) h
  | cons c cs =>
    by_cases hraw : c = '"' ∧ quotes + 1 < 2
    · obtain ⟨rfl, hone⟩ := hraw
      have hwrite : escapeLines (quotes + 1) ('"' :: cs) = '"' :: escapeLines (quotes + 2) cs := by
        rw [escapeLines, if_neg (by decide), if_pos ⟨rfl, hone⟩]
      cases cs with
      | nil =>
        rw [hwrite]
        exact readBasicLines_end (by omega : 2 ≤ 2) h
      | cons c cs =>
        have hhead : (escapeLines (quotes + 2) (c :: cs) ++ '"' :: '"' :: '"' :: rest).head? ≠
            some '"' := escapeLines_head (by omega) cs _
        apply hkeep
        intro more hmore
        rw [hwrite, List.cons_append, List.cons.injEq] at hmore
        rw [hmore.2] at hhead
        exact hhead rfl
    · have hhead := escapeLines_head hraw cs ('"' :: '"' :: '"' :: rest)
      apply hkeep
      intro more hmore
      rw [hmore] at hhead
      exact hhead rfl

/-- Every third quote in a row is escaped, so the text never closes its string. -/
theorem readBasicLines_escapeLines (cs : List Char) {quotes : Nat} (hquotes : quotes ≤ 2)
    {rest : List Char} (h : rest.head? ≠ some '"') :
    readBasicLines .none (escapeLines quotes cs ++ '"' :: '"' :: '"' :: rest) =
      some (cs, rest) := by
  induction cs generalizing quotes with
  | nil => exact readBasicLines_end (by omega : 0 ≤ 2) h
  | cons c cs ih =>
    rw [escapeLines]
    split_ifs with hend hraw
    · rw [hend, List.cons_append, readBasicLines_newline, ih (Nat.zero_le 2)]
      rfl
    · rw [hraw.1]
      exact readBasicLines_raw_quote hraw.2 cs h (ih hraw.2)
    · rw [List.append_assoc, (escape_escaped c).readBasicLines, ih (Nat.zero_le 2)]
      rfl

theorem readLiteralLines_end {quotes : Nat} (hquotes : quotes ≤ 2) {rest : List Char}
    (h : rest.head? ≠ some '\'') :
    readLiteralLines (List.replicate quotes '\'' ++ '\'' :: '\'' :: '\'' :: rest) =
      some (List.replicate quotes '\'', rest) := by
  have hrest : ∀ more, rest ≠ '\'' :: more := fun more hmore => h (by rw [hmore]; rfl)
  match quotes, hquotes with
  | 0, _ =>
    show readLiteralLines ('\'' :: '\'' :: '\'' :: rest) = _
    rw [readLiteralLines]
    · rfl
    all_goals simp [hrest]
  | 1, _ =>
    show readLiteralLines ('\'' :: '\'' :: '\'' :: '\'' :: rest) = _
    rw [readLiteralLines]
    · rfl
    all_goals simp [hrest]
  | 2, _ => rfl

theorem readLiteralLines_char {c : Char} {rest : List Char} (hplain : c = '\n' ∨ isPlain c = true)
    (h : ∀ more, c :: rest ≠ '\'' :: '\'' :: '\'' :: more) :
    readLiteralLines (c :: rest) = keep c (readLiteralLines rest) := by
  rw [readLiteralLines]
  · rw [if_pos (by simpa using hplain)]
  · rintro more rfl hmore
    exact h _ (by rw [hmore])
  · rintro more rfl hmore
    exact h _ (by rw [hmore])
  · rintro more rfl hmore
    exact h _ (by rw [hmore])
  · rintro more rfl
    rcases hplain with hplain | hplain <;> cases hplain

theorem hasTriple_tail {quote c : Char} {cs : List Char} (h : hasTriple quote (c :: cs) = false) :
    hasTriple quote cs = false := by
  match cs with
  | [] => rfl
  | [_] => rfl
  | _ :: _ :: _ =>
    rw [hasTriple, Bool.or_eq_false_iff] at h
    exact h.2

/-- Without three quotes in a row a literal string of several lines needs no escape. -/
theorem readLiteralLines_plain {cs : List Char} (hplain : ∀ c ∈ cs, c = '\n' ∨ isPlain c = true)
    (htriple : hasTriple '\'' cs = false) {rest : List Char} (h : rest.head? ≠ some '\'') :
    readLiteralLines (cs ++ '\'' :: '\'' :: '\'' :: rest) = some (cs, rest) := by
  induction cs with
  | nil => exact readLiteralLines_end (by omega : 0 ≤ 2) h
  | cons c cs ih =>
    rw [List.forall_mem_cons] at hplain
    by_cases hstart : ∃ more, c :: cs ++ '\'' :: '\'' :: '\'' :: rest = '\'' :: '\'' :: '\'' :: more
    · obtain ⟨more, hmore⟩ := hstart
      match cs with
      | [] =>
        rw [(List.cons.inj hmore).1]
        exact readLiteralLines_end (by omega : 1 ≤ 2) h
      | [d] =>
        simp only [List.cons_append, List.cons.injEq] at hmore
        rw [hmore.1, hmore.2.1]
        exact readLiteralLines_end (by omega : 2 ≤ 2) h
      | d :: e :: cs =>
        simp only [List.cons_append, List.cons.injEq] at hmore
        rw [hmore.1, hmore.2.1, hmore.2.2.1] at htriple
        cases htriple
    · have hno : ∀ more, c :: (cs ++ '\'' :: '\'' :: '\'' :: rest) ≠ '\'' :: '\'' :: '\'' :: more :=
        fun more hmore => hstart ⟨more, hmore⟩
      rw [List.cons_append, readLiteralLines_char hplain.1 hno,
        ih hplain.2 (hasTriple_tail htriple)]
      rfl

/-! ## The quotes -/

/-- The line end behind the opening quotes is removed, and no other one. -/
theorem dropNewline_openingLine (cs : List Char) {w : List Char}
    (h : w.head? = some '\n' → '\n' ∈ cs) (hreturn : w.head? ≠ some '\r') :
    dropNewline (openingLine cs ++ w) = w := by
  unfold openingLine
  split_ifs with hend
  · rfl
  · match w with
    | [] => rfl
    | c :: w =>
      rw [List.nil_append, dropNewline]
      · intro _ heq
        rw [heq] at h
        exact hend (h rfl)
      · intro _ heq
        rw [heq] at hreturn
        exact hreturn rfl

theorem StringForm.of_literal {cs : List Char} (h : of cs = .literal) :
    (∀ c ∈ cs, isPlain c = true) ∧ '\'' ∉ cs := by
  unfold of escaped at h
  split_ifs at h with hcontrol hend hbasic hliteral
  rw [Bool.not_eq_true, List.any_eq_false] at hcontrol
  refine ⟨fun c hc => ?_, hliteral.2⟩
  refine isPlain_of_not_isControl (Bool.eq_false_iff.mpr (hcontrol c hc)) ?_
  rintro rfl
  exact hliteral.1 hc

theorem StringForm.of_literalLines {cs : List Char} (h : of cs = .literalLines) :
    (∀ c ∈ cs, c = '\n' ∨ isPlain c = true) ∧ hasTriple '\'' cs = false := by
  unfold of escaped at h
  split_ifs at h with hcontrol hend hbasic hliteral hlines htriple
  rw [Bool.not_eq_true, List.any_eq_false] at hcontrol
  refine ⟨fun c hc => ?_, by simpa using htriple⟩
  by_cases hnewline : c = '\n'
  · exact .inl hnewline
  · exact .inr (isPlain_of_not_isControl (Bool.eq_false_iff.mpr (hcontrol c hc)) hnewline)

theorem escapeLines_opening (cs rest : List Char) (h : rest.head? = some '"') :
    ((escapeLines 0 cs ++ rest).head? = some '\n' → '\n' ∈ cs) ∧
      (escapeLines 0 cs ++ rest).head? ≠ some '\r' := by
  cases cs with
  | nil =>
    rw [escapeLines, List.nil_append, h]
    exact ⟨fun h => (by cases h), fun h => by cases h⟩
  | cons c cs =>
    rw [escapeLines]
    split_ifs with hend hraw
    · rw [hend]
      exact ⟨fun _ => List.mem_cons_self, fun h => by cases h⟩
    · rw [hraw.1]
      exact ⟨fun h => (by cases h), fun h => by cases h⟩
    · obtain ⟨x, hx, hplain, -⟩ := (escape_escaped c).head (escapeLines 0 cs ++ rest)
      rw [List.append_assoc, hx]
      constructor <;> (intro h; cases h; cases hplain)

theorem readString_basic {w : List Char} (h : ∀ more, w ≠ '"' :: '"' :: more) :
    readString ('"' :: w) = readBasic w := by
  rw [readString]
  exact h

theorem readString_literal {w : List Char} (h : ∀ more, w ≠ '\'' :: '\'' :: more) :
    readString ('\'' :: w) = readLiteral w := by
  rw [readString]
  exact h

/-- A string is read back whole, if what is behind it is not a quote. -/
theorem readString_writeString (cs : List Char) {rest : List Char}
    (hquote : rest.head? ≠ some '"') (hliteral : rest.head? ≠ some '\'') :
    readString (writeString cs ++ rest) = some (cs, rest) := by
  unfold writeString
  cases hform : StringForm.of cs with
  | basic =>
    simp only [List.append_assoc, List.cons_append, List.nil_append]
    rw [readString_basic, readBasic_escape]
    intro more hmore
    cases cs with
    | nil =>
      obtain ⟨-, hrest⟩ := List.cons.inj hmore
      rw [hrest] at hquote
      exact hquote rfl
    | cons c cs =>
      obtain ⟨x, hx, -, hne⟩ := (escape_escaped c).head (cs.flatMap escape ++ '"' :: rest)
      rw [List.flatMap_cons, List.append_assoc] at hmore
      rw [hmore] at hx
      exact hne (Option.some.inj hx).symm
  | literal =>
    obtain ⟨hplain, hno⟩ := StringForm.of_literal hform
    simp only [List.append_assoc, List.cons_append, List.nil_append]
    rw [readString_literal, readLiteral_plain hplain hno]
    intro more hmore
    cases cs with
    | nil =>
      obtain ⟨-, hrest⟩ := List.cons.inj hmore
      rw [hrest] at hliteral
      exact hliteral rfl
    | cons c cs =>
      obtain ⟨rfl, -⟩ := List.cons.inj hmore
      exact hno List.mem_cons_self
  | basicLines =>
    obtain ⟨hopening, hreturn⟩ := escapeLines_opening cs ('"' :: '"' :: '"' :: rest) rfl
    simp only [List.append_assoc, List.cons_append, List.nil_append]
    rw [readString, dropNewline_openingLine cs hopening hreturn,
      readBasicLines_escapeLines cs (Nat.zero_le 2) hquote]
  | literalLines =>
    obtain ⟨hplain, htriple⟩ := StringForm.of_literalLines hform
    simp only [List.append_assoc, List.cons_append, List.nil_append]
    rw [readString, dropNewline_openingLine cs, readLiteralLines_plain hplain htriple hliteral]
    · intro h
      cases cs with
      | nil => cases h
      | cons c cs =>
        rw [Option.some.inj h]
        exact List.mem_cons_self
    · intro h
      cases cs with
      | nil => cases h
      | cons c cs =>
        cases h
        rcases hplain '\r' List.mem_cons_self with h | h <;> cases h

-- the last quote of the contents stands right in front of the closing ones
example : writeString ['\\', '\n', '\''] =
    ['\'', '\'', '\'', '\n', '\\', '\n', '\'', '\'', '\'', '\''] := by decide

end NodeProbe.Toml
