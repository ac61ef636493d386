import Splittable.Split.Order

/-!
# What reordering leaves alone

A shuffle changes its source of words only by drawing from it.

* `Random.shuffle_keeps`   what no draw changes, no shuffle changes;
* `Order.apply_keeps`      putting items in order changes neither files nor flags.
-/

namespace Splittable

namespace Random

section
variable {σ α β : Type} {next : σ → UInt32 × σ} {f : σ → β}

theorem below_keeps (hf : ∀ s, f (next s).2 = f s) (bound : UInt32) (s : σ) :
    f (below next bound s).2 = f s := by
  unfold below
  dsimp only
  split
  · split
    · exact (hf _).trans (hf s)
    · exact (hf _).trans (hf s)
  · exact hf s

theorem next_keeps (hf : ∀ s, f (next s).2 = f s) (c : Choices σ) :
    f (c.next next).2.source = f c.source := by
  unfold Choices.next
  dsimp only
  have hdrawn : ∀ bound, f (below next bound c.source).2 = f c.source := fun bound =>
    below_keeps hf bound c.source
  split
  · split
    · exact hdrawn _
    · exact hdrawn _
  · split
    · rfl
    · rfl

theorem shuffleFrom_keeps (hf : ∀ s, f (next s).2 = f s) (count : Nat) (c : Choices σ)
    (items : Array α) : f (shuffleFrom next count c items).2.source = f c.source := by
  induction count generalizing c items with
  | zero => rfl
  | succ count ih => exact (ih _ _).trans (next_keeps hf c)

theorem shuffle_keeps (next : σ → UInt32 × σ) (f : σ → β) (hf : ∀ s, f (next s).2 = f s) (s : σ)
    (items : Array α) :
    f (shuffle next s items).2 = f s := by
  unfold shuffle
  split
  · rfl
  · exact shuffleFrom_keeps hf _ (.start s) items

end

end Random

theorem Order.apply_keeps {ε α : Type} (order : Order) (items : List α) (w : World ε) :
    (order.apply items w).2.files = w.files ∧ (order.apply items w).2.flags = w.flags := by
  cases order with
  | discovery => exact ⟨rfl, rfl⟩
  | seeded seed => exact ⟨rfl, rfl⟩
  | shuffle =>
    exact ⟨Random.shuffle_keeps drawWord World.files (fun _ => rfl) w items.toArray,
      Random.shuffle_keeps drawWord World.flags (fun _ => rfl) w items.toArray⟩

end Splittable
