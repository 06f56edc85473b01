import Mathlib.Data.List.Forall2
import NodeProbe.Proofs.Padding
import NodeProbe.Request.Call

/-!
# The text of a call

A call is read by three cuts, at the first dot, the first opening bracket behind it and the first
closing bracket behind that. Each of them lands where the text was put together, whatever stands
between the brackets and behind them, and only the first two can be missing a partner.
-/
namespace NodeProbe

open Text

theorem trim_toList {s : String} (h : s.trimBlanks = s) : trim s.toList = s.toList := by
  rw [← String.toList_inj, String.trimBlanks, String.toList_ofList] at h
  exact h

namespace OperationCall

/-! ## The cuts -/

theorem read_no_dot {input : String} (h : '.' ∉ input.toList) :
    read input = .error (.malformedCommand input "expected Component.method") := by
  unfold read
  rw [cut_eq_none.mpr h]

/-- The first opening bracket behind the first dot has no closing one behind it. -/
def Unclosed (input : String) : Prop :=
  ∃ component method behind, input.toList = component ++ '.' :: (method ++ '[' :: behind) ∧
    '.' ∉ component ∧ '[' ∉ method ∧ ']' ∉ behind

theorem read_unclosed {input : String} (h : Unclosed input) :
    read input = .error (.malformedCommand input "] not found") := by
  obtain ⟨component, method, behind, hinput, hdot, hopen, hclose⟩ := h
  unfold read
  rw [hinput, cut_append hdot]
  dsimp only
  rw [cut_append hopen]
  dsimp only
  rw [cut_eq_none.mpr hclose]

section Cuts

variable {input : String} {component method : List Char} (hdot : '.' ∉ component)
  (hopen : '[' ∉ method)
include hdot hopen

theorem read_without_brackets (hinput : input.toList = component ++ '.' :: method) :
    read input = .ok ⟨.ofList component, .ofList (trim method), []⟩ := by
  unfold read
  rw [hinput, cut_append hdot]
  dsimp only
  rw [cut_eq_none.mpr hopen]

theorem read_with_brackets {inner rest : List Char} (hclose : ']' ∉ inner)
    (hinput : input.toList = component ++ '.' :: (method ++ '[' :: (inner ++ ']' :: rest))) :
    read input = .ok ⟨.ofList component, .ofList (trim method), splitArguments inner⟩ := by
  unfold read
  rw [hinput, cut_append hdot]
  dsimp only
  rw [cut_append hopen]
  dsimp only
  rw [cut_append hclose]

end Cuts

theorem exists_cut (c : Char) (cs : List Char) :
    c ∉ cs ∨ ∃ before behind, cs = before ++ c :: behind ∧ c ∉ before := by
  cases hcut : cut c cs with
  | none => exact .inl (cut_eq_none.mp hcut)
  | some parts => exact .inr ⟨parts.1, parts.2, eq_append_of_cut hcut⟩

/-- A text with a dot that leaves no bracket open is read. -/
theorem read_cases (input : String) :
    '.' ∉ input.toList ∨ Unclosed input ∨ ∃ call, read input = .ok call := by
  rcases exists_cut '.' input.toList with hnone | ⟨component, rest, hinput, hdot⟩
  · exact .inl hnone
  rcases exists_cut '[' rest with hopen | ⟨method, behind, rfl, hopen⟩
  · exact .inr (.inr ⟨_, read_without_brackets hdot hopen hinput⟩)
  rcases exists_cut ']' behind with hclose | ⟨inner, rest, rfl, hclose⟩
  · exact .inr (.inl ⟨component, method, behind, hinput, hdot, hopen, hclose⟩)
  · exact .inr (.inr ⟨_, read_with_brackets hdot hopen hclose hinput⟩)

/-- A call is refused only for want of a dot or of a closing bracket. -/
theorem exists_error_iff {input : String} :
    (∃ e, read input = .error e) ↔ '.' ∉ input.toList ∨ Unclosed input := by
  constructor
  · rintro ⟨e, he⟩
    rcases read_cases input with hnone | hopen | ⟨call, hcall⟩
    · exact .inl hnone
    · exact .inr hopen
    · rw [hcall] at he
      cases he
  · rintro (hnone | hopen)
    · exact ⟨_, read_no_dot hnone⟩
    · exact ⟨_, read_unclosed hopen⟩

/-! ## The arguments -/

/-- A text that an argument can be: trimmed, and without the signs that end it. -/
structure Argument (a : String) : Prop where
  trimmed : a.trimBlanks = a
  no_comma : ',' ∉ a.toList
  no_bracket : ']' ∉ a.toList

abbrev PaddedAll (texts written : List String) : Prop :=
  List.Forall₂ (fun text w => Padded text.toList w.toList) texts written

theorem PaddedAll.notMem {args written : List String} (h : PaddedAll args written) {c : Char}
    (hblank : isBlank c = false) (hargs : ∀ a ∈ args, c ∉ a.toList) : ∀ w ∈ written, c ∉ w.toList := by
  have hboth := (List.forall₂_and_left _ _).mpr ⟨hargs, h⟩
  have hnone := hboth.flip.imp fun w a hpadded =>
    And.intro (hpadded.2.notMem hblank hpadded.1) hpadded.2
  exact ((List.forall₂_and_left _ _).mp hnone).1

theorem notMem_intercalate {c : Char} {sep : List Char} (hsep : c ∉ sep) {texts : List (List Char)}
    (h : ∀ text ∈ texts, c ∉ text) : c ∉ sep.intercalate texts := by
  induction texts with
  | nil => exact List.not_mem_nil
  | cons text texts ih =>
    obtain ⟨hfirst, hlater⟩ := List.forall_mem_cons.mp h
    cases texts with
    | nil =>
      rw [List.intercalate_singleton]
      exact hfirst
    | cons next texts =>
      rw [List.intercalate_cons_cons, List.mem_append, List.mem_append, not_or, not_or]
      exact ⟨⟨hfirst, hsep⟩, ih hlater⟩

/-- A comma, or the text of the only argument, is left between the brackets. -/
theorem trim_intercalate_ne_nil {args written : List String} (h : PaddedAll args written)
    (hargs : ∀ a ∈ args, Argument a) (hnone : args ≠ []) (hone : args ≠ [""]) :
    trim (",".intercalate written).toList ≠ [] := by
  cases h with
  | nil => exact absurd rfl hnone
  | @cons a w _ _ hfirst hlater =>
    cases hlater with
    | nil =>
      have htrimmed := trim_toList (hargs a List.mem_cons_self).trimmed
      rw [String.intercalate_singleton, hfirst.trim_of_trimmed htrimmed]
      intro hnil
      exact hone (by rw [String.toList_eq_nil_iff.mp hnil])
    | cons _ _ =>
      refine List.ne_nil_of_mem (mem_trim (c := ',') ?_ (by decide))
      rw [String.intercalate_cons_cons, String.toList_append, String.toList_append]
      simp

/-- Arguments are found again however they are padded. One empty argument is excluded, since it is
written like none. -/
theorem splitArguments_intercalate {args written : List String} (h : PaddedAll args written)
    (hargs : ∀ a ∈ args, Argument a) (hone : args ≠ [""]) :
    splitArguments (",".intercalate written).toList = args := by
  by_cases hnone : args = []
  · subst hnone
    cases h
    rfl
  have hleft := trim_intercalate_ne_nil h hargs hnone hone
  have hsplit : (",".intercalate written).toList.splitOn ',' = written.map String.toList := by
    rw [String.toList_intercalate]
    refine List.splitOn_intercalate ',' (fun text htext => ?_) ?_
    · obtain ⟨w, hw, rfl⟩ := List.mem_map.mp htext
      exact h.notMem (by decide) (fun a ha => (hargs a ha).no_comma) w hw
    · intro hnil
      rw [List.map_eq_nil_iff.mp hnil] at h
      cases h
      exact hnone rfl
  have htrim : List.Forall₂ (fun w a => String.ofList (trim w.toList) = a) written args := by
    refine ((List.forall₂_and_left _ _).mpr ⟨hargs, h⟩).flip.imp fun w a hpadded => ?_
    rw [hpadded.2.trim_of_trimmed (trim_toList hpadded.1.trimmed),
      String.ofList_toList]
  unfold splitArguments
  rw [if_neg (by simpa using hleft), hsplit, List.map_map]
  rw [← List.forall₂_eq_eq_eq, List.forall₂_map_left_iff]
  exact htrim

/-- The text of a call reads back as what it was put together from, with any blanks around the
method and the arguments and any text behind the closing bracket. A text is no call exactly when it
has no dot, or when the first opening bracket behind its first dot has no closing one behind it. -/
theorem call_text_reads_back :
    (∀ component method name : String, '.' ∉ component.toList → '[' ∉ method.toList →
      method.trimBlanks = method → Padded method.toList name.toList →
      read (component ++ "." ++ name) = .ok ⟨component, method, []⟩ ∧
      ∀ (args written : List String) (rest : String), (∀ a ∈ args, Argument a) → args ≠ [""] →
        PaddedAll args written →
        read (component ++ "." ++ name ++ "[" ++ ",".intercalate written ++ "]" ++ rest) =
          .ok ⟨component, method, args⟩) ∧
    ∀ input, (∃ e, read input = .error e) ↔ '.' ∉ input.toList ∨ Unclosed input := by
  refine ⟨?_, fun input => exists_error_iff⟩
  intro component method name hdot hopen htrimmed hname
  have hnameopen : '[' ∉ name.toList := hname.notMem (by decide) hopen
  have hmethod : String.ofList (trim name.toList) = method := by
    rw [hname.trim_of_trimmed (trim_toList htrimmed), String.ofList_toList]
  constructor
  · have hinput : (component ++ "." ++ name).toList = component.toList ++ '.' :: name.toList := by
      simp only [String.toList_append, List.append_assoc]
      rfl
    rw [read_without_brackets hdot hnameopen hinput, hmethod, String.ofList_toList]
  · intro args written rest hargs hone hwritten
    have hclose : ']' ∉ (",".intercalate written).toList := by
      rw [String.toList_intercalate]
      refine notMem_intercalate (by decide) fun text htext => ?_
      obtain ⟨w, hw, rfl⟩ := List.mem_map.mp htext
      exact hwritten.notMem (by decide) (fun a ha => (hargs a ha).no_bracket) w hw
    have hinput : (component ++ "." ++ name ++ "[" ++ ",".intercalate written ++ "]" ++ rest).toList =
        component.toList ++ '.' :: (name.toList ++ '[' ::
          ((",".intercalate written).toList ++ ']' :: rest.toList)) := by
      simp only [String.toList_append, List.append_assoc]
      rfl
    rw [read_with_brackets hdot hnameopen hclose hinput, hmethod, String.ofList_toList,
      splitArguments_intercalate hwritten hargs hone]

/-- An opening bracket and an equals sign within arguments, an empty argument, and brackets behind
the call. -/
theorem call_with_blanks_reads_back :
    read "C. sub.m [ a[b,,x = y\t]][" = .ok ⟨"C", "sub.m", ["a[b", "", "x = y"]⟩ ∧
    ∃ e, read "C.m[a" = .error e := by
  have hargs : ∀ a ∈ ["a[b", "", "x = y"], Argument a := by
    intro a ha
    simp only [List.mem_cons, List.not_mem_nil, or_false] at ha
    rcases ha with rfl | rfl | rfl <;> exact ⟨by decide, by decide, by decide⟩
  have hwritten : PaddedAll ["a[b", "", "x = y"] [" a[b", "", "x = y\t"] :=
    .cons ⟨[' '], [], List.all_eq_true.mp rfl, List.all_eq_true.mp rfl, rfl⟩ <|
      .cons (.refl _) <|
      .cons ⟨[], ['\t'], List.all_eq_true.mp rfl, List.all_eq_true.mp rfl, rfl⟩ .nil
  have hname : Padded "sub.m".toList " sub.m ".toList :=
    ⟨[' '], [' '], List.all_eq_true.mp rfl, List.all_eq_true.mp rfl, rfl⟩
  obtain ⟨hreads, hfails⟩ := call_text_reads_back
  constructor
  · exact (hreads "C" "sub.m" " sub.m " (by decide) (by decide) (by decide) hname).2
      ["a[b", "", "x = y"] [" a[b", "", "x = y\t"] "][" hargs (by decide) hwritten
  · exact (hfails "C.m[a").mpr (.inr ⟨['C'], ['m'], ['a'], by decide, by decide, by decide, by decide⟩)

/-- A bracket behind the call is left open, but the call is read. -/
theorem open_bracket_behind_call_accepted :
    let input := "C.m[a]["
    (∃ component before behind, input.toList = component ++ '.' :: (before ++ '[' :: behind) ∧
      '.' ∉ component ∧ ']' ∉ behind) ∧
    read input = .ok ⟨"C", "m", ["a"]⟩ := by
  refine ⟨⟨['C'], ['m', '[', 'a', ']'], [], by decide, by decide, by decide⟩, ?_⟩
  decide

end OperationCall

end NodeProbe
