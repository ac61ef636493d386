import Splittable.Text.Utf8

/-!
# Words in big-endian byte order

* `BigEndian.ofWord32`, `ofWord64`   a word as four or eight bytes, most significant first;
* `BigEndian.takeWord32?`, `takeWord64?`   a word from the front of a byte list, with the rest;
  what stands there is the word written out (`takeWord64?_eq_some_iff`).
-/

namespace Splittable.BigEndian

/-- the low `n` bytes of a number, most significant first -/
def ofNat : (n value : Nat) → Bytes
  | 0, _ => []
  | n + 1, value => ofNat n (value / 256) ++ [value.toUInt8]

/-- the number that bytes write in base 256 -/
def toNat (bs : Bytes) : Nat := bs.foldl (fun value b => value * 256 + b.toNat) 0

theorem length_ofNat (n value : Nat) : (ofNat n value).length = n := by
  induction n generalizing value with
  | zero => rfl
  | succ n ih => rw [ofNat, List.length_append, ih]; rfl

theorem toNat_append (bs : Bytes) (b : UInt8) : toNat (bs ++ [b]) = toNat bs * 256 + b.toNat := by
  rw [toNat, List.foldl_append]
  rfl

/-- A number below `256 ^ n` is read back from its `n` bytes. -/
theorem toNat_ofNat {n value : Nat} (h : value < Nat.pow 256 n) :
    toNat (ofNat n value) = value := by
  induction n generalizing value with
  | zero => have : value = 0 := by simpa using h
            subst this; rfl
  | succ n ih =>
    have hd : value / 256 < Nat.pow 256 n := by
      rw [show Nat.pow 256 (n + 1) = Nat.pow 256 n * 256 from Nat.pow_succ 256 n] at h
      exact Nat.div_lt_of_lt_mul (by rw [Nat.mul_comm]; exact h)
    have hb : (value.toUInt8).toNat = value % 256 := by simp
    rw [ofNat, toNat_append, ih hd, hb]
    omega

theorem toNat_lt (bs : Bytes) : toNat bs < Nat.pow 256 bs.length := by
  induction hn : bs.length generalizing bs with
  | zero =>
    rw [List.length_eq_zero_iff.1 hn]
    exact Nat.one_pos
  | succ n ih =>
    obtain rfl | ⟨front, b, rfl⟩ := List.eq_nil_or_concat bs
    · cases hn
    · rw [List.concat_eq_append, List.length_append] at hn
      have hfront := ih front (Nat.succ.inj hn)
      have hb := b.toNat_lt
      have hpow : Nat.pow 256 (n + 1) = Nat.pow 256 n * 256 := Nat.pow_succ 256 n
      rw [List.concat_eq_append, toNat_append]
      omega

/-- **Bytes are written again from the number that they write.** -/
theorem ofNat_toNat {n : Nat} {bs : Bytes} (h : bs.length = n) : ofNat n (toNat bs) = bs := by
  induction n generalizing bs with
  | zero => exact (List.length_eq_zero_iff.1 h).symm
  | succ n ih =>
    obtain rfl | ⟨front, b, rfl⟩ := List.eq_nil_or_concat bs
    · cases h
    · rw [List.concat_eq_append] at h ⊢
      rw [List.length_append] at h
      have hb := b.toNat_lt
      have hfront : (toNat front * 256 + b.toNat) / 256 = toNat front := by omega
      have hlast : (toNat front * 256 + b.toNat).toUInt8 = b := by
        apply UInt8.toNat_inj.1
        rw [Nat.toUInt8, UInt8.toNat_ofNat']
        omega
      rw [toNat_append, ofNat, hfront, hlast, ih (Nat.succ.inj h)]

def ofWord32 (w : UInt32) : Bytes := ofNat 4 w.toNat

def ofWord64 (w : UInt64) : Bytes := ofNat 8 w.toNat

/-- a number that four bytes can hold, as a word -/
theorem ofWord32_toUInt32 {n : Nat} (h : n < UInt32.size) : ofWord32 n.toUInt32 = ofNat 4 n := by
  rw [ofWord32, Nat.toUInt32, UInt32.toNat_ofNat', Nat.mod_eq_of_lt h]

/-- the first `n` bytes and the rest, where there are that many -/
def take? (n : Nat) (bs : Bytes) : Option (Bytes × Bytes) :=
  if n ≤ bs.length then some (bs.take n, bs.drop n) else none

def takeWord32? (bs : Bytes) : Option (UInt32 × Bytes) :=
  (take? 4 bs).map fun (word, rest) => ((toNat word).toUInt32, rest)

def takeWord64? (bs : Bytes) : Option (UInt64 × Bytes) :=
  (take? 8 bs).map fun (word, rest) => ((toNat word).toUInt64, rest)

theorem take?_append {n : Nat} {bs rest : Bytes} (h : bs.length = n) :
    take? n (bs ++ rest) = some (bs, rest) := by
  subst h
  rw [take?, if_pos (by rw [List.length_append]; omega), List.take_left, List.drop_left]

theorem take?_eq_some_iff {n : Nat} {bs front rest : Bytes} :
    take? n bs = some (front, rest) ↔ front.length = n ∧ bs = front ++ rest := by
  constructor
  · intro h
    unfold take? at h
    split at h
    · rename_i hle
      cases h
      exact ⟨List.length_take_of_le hle, (List.take_append_drop n bs).symm⟩
    · cases h
  · rintro ⟨hlength, rfl⟩
    exact take?_append hlength

theorem takeWord64?_ofWord64 (w : UInt64) (rest : Bytes) :
    takeWord64? (ofWord64 w ++ rest) = some (w, rest) := by
  rw [takeWord64?, take?_append (by rw [ofWord64, length_ofNat])]
  have h : toNat (ofWord64 w) = w.toNat := toNat_ofNat (by have := w.toNat_lt; simpa using this)
  simp [h]

theorem takeWord32?_ofWord32 (w : UInt32) (rest : Bytes) :
    takeWord32? (ofWord32 w ++ rest) = some (w, rest) := by
  rw [takeWord32?, take?_append (by rw [ofWord32, length_ofNat])]
  have h : toNat (ofWord32 w) = w.toNat := toNat_ofNat (by have := w.toNat_lt; simpa using this)
  simp [h]

/-- A number that four bytes can hold is read from them. -/
theorem takeWord32?_count {n : Nat} (h : n < UInt32.size) (rest : Bytes) :
    takeWord32? (ofNat 4 n ++ rest) = some (n.toUInt32, rest) := by
  rw [← ofWord32_toUInt32 h, takeWord32?_ofWord32]

/-- As many bytes are taken as were counted. -/
theorem take?_count {bs : Bytes} (h : bs.length < UInt32.size) (rest : Bytes) :
    take? bs.length.toUInt32.toNat (bs ++ rest) = some (bs, rest) :=
  take?_append (Nat.mod_eq_of_lt h).symm

/-- **A word stands at the front where its bytes stand there.** -/
theorem takeWord64?_eq_some_iff {bs rest : Bytes} {w : UInt64} :
    takeWord64? bs = some (w, rest) ↔ bs = ofWord64 w ++ rest := by
  constructor
  · intro h
    obtain ⟨⟨word, rest⟩, htake, hword⟩ := Option.map_eq_some_iff.1 h
    cases hword
    obtain ⟨hlength, rfl⟩ := take?_eq_some_iff.1 htake
    have hlt := toNat_lt word
    rw [hlength] at hlt
    rw [ofWord64, Nat.toUInt64, UInt64.toNat_ofNat', Nat.mod_eq_of_lt hlt, ofNat_toNat hlength]
  · rintro rfl
    exact takeWord64?_ofWord64 w rest

theorem takeWord32?_eq_some_iff {bs rest : Bytes} {w : UInt32} :
    takeWord32? bs = some (w, rest) ↔ bs = ofWord32 w ++ rest := by
  constructor
  · intro h
    obtain ⟨⟨word, rest⟩, htake, hword⟩ := Option.map_eq_some_iff.1 h
    cases hword
    obtain ⟨hlength, rfl⟩ := take?_eq_some_iff.1 htake
    have hlt := toNat_lt word
    rw [hlength] at hlt
    rw [ofWord32, Nat.toUInt32, UInt32.toNat_ofNat', Nat.mod_eq_of_lt hlt, ofNat_toNat hlength]
  · rintro rfl
    exact takeWord32?_ofWord32 w rest

end Splittable.BigEndian
