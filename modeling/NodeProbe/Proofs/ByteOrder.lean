import Mathlib.Tactic.SplitIfs

/-!
# Texts are ordered by their bytes

Texts are compared character by character. In UTF-8 the bytes of two characters differ first
at a place where those of the smaller one are smaller, so comparing the bytes gives the same
order.
-/
namespace NodeProbe.Text

def bytes (s : String) : List UInt8 := s.toList.flatMap String.utf8EncodeChar

/-- The lists differ, and first at a place where the first one is smaller. Neither begins the
other. -/
def DiffersBelow : List Nat → List Nat → Prop
  | a :: as, b :: bs => a < b ∨ a = b ∧ DiffersBelow as bs
  | _, _ => False

/-- Whatever follows, lists that differ below are ordered by that place. -/
theorem DiffersBelow.map_lt {as bs : List Nat} (h : DiffersBelow as bs)
    (hsmall : ∀ b ∈ bs, b < 256) (x y : List UInt8) :
    as.map UInt8.ofNat ++ x < bs.map UInt8.ofNat ++ y := by
  induction as generalizing bs with
  | nil => cases bs <;> exact h.elim
  | cons a as ih =>
    cases bs with
    | nil => exact h.elim
    | cons b bs =>
      simp only [List.map_cons, List.cons_append, List.cons_lt_cons_iff]
      rcases h with h | ⟨rfl, h⟩
      · left
        have hb := hsmall b List.mem_cons_self
        rw [UInt8.lt_iff_toNat_lt, UInt8.toNat_ofNat', UInt8.toNat_ofNat']
        omega
      · exact .inr ⟨rfl, ih h fun b hb => hsmall b (List.mem_cons_of_mem _ hb)⟩

def codes (v : Nat) : List Nat :=
  if v ≤ 127 then [v]
  else if v ≤ 2047 then [v / 64 % 32 + 192, v % 64 + 128]
  else if v ≤ 65535 then [v / 4096 % 16 + 224, v / 64 % 64 + 128, v % 64 + 128]
  else [v / 262144 % 8 + 240, v / 4096 % 64 + 128, v / 64 % 64 + 128, v % 64 + 128]

theorem utf8EncodeChar_eq_codes (c : Char) :
    String.utf8EncodeChar c = (codes c.val.toNat).map UInt8.ofNat := by
  unfold String.utf8EncodeChar codes
  dsimp only
  split_ifs <;> rfl

theorem codes_lt (v : Nat) : ∀ b ∈ codes v, b < 256 := by
  unfold codes
  split_ifs <;> simp only [List.forall_mem_cons, List.not_mem_nil, false_imp_iff, implies_true,
    and_true] <;> omega

theorem codes_differ {v w : Nat} (h : v < w) (hw : w < 1114112) :
    DiffersBelow (codes v) (codes w) := by
  have hthird (n : Nat) : n / 4096 = n / 64 / 64 := by omega
  have hfirst (n : Nat) : n / 262144 = n / 64 / 64 / 64 := by omega
  unfold codes
  split_ifs <;> simp only [DiffersBelow, and_false, or_false, hthird, hfirst] <;> omega

/-- The bytes of a smaller character come before those of a greater one, whatever follows. -/
theorem utf8EncodeChar_lt {c d : Char} (h : c < d) (x y : List UInt8) :
    String.utf8EncodeChar c ++ x < String.utf8EncodeChar d ++ y := by
  have hd : d.val.toNat < 1114112 := by
    have hvalid := d.valid
    unfold UInt32.isValidChar Nat.isValidChar at hvalid
    omega
  rw [utf8EncodeChar_eq_codes, utf8EncodeChar_eq_codes]
  exact (codes_differ h hd).map_lt (codes_lt _) x y

/-- A smaller text has smaller bytes. Only the first place where the texts differ is looked at. -/
theorem flatMap_utf8EncodeChar_lt {cs ds : List Char} (h : cs < ds) :
    cs.flatMap String.utf8EncodeChar < ds.flatMap String.utf8EncodeChar := by
  induction cs generalizing ds with
  | nil =>
    cases ds with
    | nil => exact absurd h (List.lt_irrefl [])
    | cons d ds =>
      obtain ⟨b, bs, hbytes⟩ := List.exists_cons_of_ne_nil (String.utf8EncodeChar_ne_nil (c := d))
      rw [List.flatMap_cons, hbytes]
      exact List.nil_lt_cons _ _
  | cons c cs ih =>
    cases ds with
    | nil => exact absurd h (List.not_lt_nil _)
    | cons d ds =>
      rw [List.flatMap_cons, List.flatMap_cons]
      rcases List.cons_lt_cons_iff.mp h with hhead | ⟨rfl, htail⟩
      · exact utf8EncodeChar_lt hhead _ _
      · exact List.append_left_lt (ih htail)

theorem bytes_lt {s t : String} (h : s < t) : bytes s < bytes t :=
  flatMap_utf8EncodeChar_lt (String.lt_iff.mp h)

/-- Texts are in order exactly when their bytes are. -/
theorem le_iff_bytes_le {s t : String} : s ≤ t ↔ bytes s ≤ bytes t := by
  refine ⟨fun h hbytes => ?_, fun h hlt => h (bytes_lt hlt)⟩
  by_cases hback : t ≤ s
  · obtain rfl := String.le_antisymm h hback
    exact List.lt_irrefl _ hbytes
  · exact List.lt_asymm hbytes (bytes_lt (String.not_le.mp hback))

end NodeProbe.Text
