import Splittable.Fault

/-!
# Sums of words

A sum that does not fit in a word stops a program that is built with checks.  Without them the
program would go on with the sum modulo `2 ^ 64`.

* `Word.add`               a word and a number, or the fault that stands for the stop;
* `Word.add_eq_ok_iff`     it is their sum;
* `Word.of_add_eq_error`   where there is none.
-/

namespace Splittable.Word

def add (a : UInt64) (n : Nat) : Except Fault UInt64 :=
  if a.toNat + n ≤ 0xFFFFFFFFFFFFFFFF then .ok (a + n.toUInt64) else .error .overflow

variable {a b : UInt64} {n : Nat}

theorem toNat_add_toUInt64 (h : a.toNat + n ≤ 0xFFFFFFFFFFFFFFFF) :
    (a + n.toUInt64).toNat = a.toNat + n := by
  have hn : n.toUInt64.toNat = n := UInt64.toNat_ofNat_of_lt' (Nat.lt_succ_of_le (by omega))
  rw [UInt64.toNat_add, hn]
  omega

theorem add_eq_ok_iff : add a n = .ok b ↔ b.toNat = a.toNat + n := by
  unfold add
  split
  · rename_i hle
    rw [Except.ok.injEq, ← UInt64.toNat_inj, toNat_add_toUInt64 hle]
    exact eq_comm
  · have hb := b.toNat_lt
    exact ⟨fun h => (nomatch h), fun h => absurd h (by omega)⟩

theorem exists_add_eq_ok (h : a.toNat + n ≤ 0xFFFFFFFFFFFFFFFF) :
    ∃ b, add a n = .ok b ∧ b.toNat = a.toNat + n :=
  ⟨a + n.toUInt64, if_pos h, toNat_add_toUInt64 h⟩

/-- Nothing but an overflow keeps a word from being added to. -/
theorem of_add_eq_error {fault : Fault} (h : add a n = .error fault) :
    fault = .overflow ∧ 0xFFFFFFFFFFFFFFFF < a.toNat + n := by
  unfold add at h
  split at h
  · cases h
  · rename_i hlt
    cases h
    exact ⟨rfl, Nat.lt_of_not_le hlt⟩

end Splittable.Word
