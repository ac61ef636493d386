import Splittable.Reader

/-!
# Reading a source

A source is read by creating its reader, starting it and going to its next record until it says
that there is none.  Any operation may fail; then the source is not read.

* `Call`               one call of an operation: the world before and after it;
* `Source.ReadTo`      a reader that has answered some records;
* `Source.ReadOut`     all records, up to the answer that there are no more;
* `Source.ReadsIn`     the records of a source in a world that nothing changes.
-/

namespace Splittable

/-- a call of an operation: the world it found and the world it left -/
structure Call (ε : Type) where
  before : World ε
  after : World ε

namespace Source

variable {ρ ε : Type} [Ratio ρ]

/-- The reader of a source that has answered some records, in the calls listed. -/
inductive ReadTo (context : Context ρ ε) (source : Source) :
    List (Call ε) → List Pair → AnyReader ρ ε → Prop
  | start {created : AnyReader ρ ε} {reader : Reader created.library} {w w' : World ε}
      {pair : Pair} :
      source.createReader context = .ok created → created.reader.start w = (.ok true, reader, w') →
      reader.current? = .ok pair →
      ReadTo context source [⟨w, w'⟩] [pair] ⟨created.library, reader⟩
  | advance {calls : List (Call ε)} {pairs : List Pair} {any : AnyReader ρ ε}
      {reader : Reader any.library} {w w' : World ε} {pair : Pair} :
      ReadTo context source calls pairs any → any.reader.advance w = (.ok true, reader, w') →
      reader.current? = .ok pair →
      ReadTo context source (calls ++ [⟨w, w'⟩]) (pairs ++ [pair]) ⟨any.library, reader⟩

/-- All records of a source: its reader has answered them and then that there are no more. -/
inductive ReadOut (context : Context ρ ε) (source : Source) : List (Call ε) → List Pair → Prop
  | empty {created : AnyReader ρ ε} {reader : Reader created.library} {w w' : World ε} :
      source.createReader context = .ok created → created.reader.start w = (.ok false, reader, w') →
      ReadOut context source [⟨w, w'⟩] []
  | last {calls : List (Call ε)} {pairs : List Pair} {any : AnyReader ρ ε}
      {reader : Reader any.library} {w w' : World ε} :
      ReadTo context source calls pairs any → any.reader.advance w = (.ok false, reader, w') →
      ReadOut context source (calls ++ [⟨w, w'⟩]) pairs

/-- The records of a source where reading it leaves the world as it is. -/
def ReadsIn (context : Context ρ ε) (w : World ε) (source : Source) (pairs : List Pair) : Prop :=
  ∃ calls : List (Call ε), ReadOut context source calls pairs ∧ ∀ call ∈ calls, call = ⟨w, w⟩

end Source

end Splittable
