import AccountTx.Transaction.Assembly

/-!
Holders of shared registries, acting in any order. Who shares a registry is its first holder, and a
clone of a holder holds the same one. To look at the registry in effect and to exchange it are
single steps, and either gives a registry to keep: it signs for as long as it is kept, also between
the two stages of an assembly.
-/

namespace AccountTx

namespace Sharing

/-- One of the holders of a shared registry. -/
@[ext] structure Holder where
  shared : Nat
  number : Nat
  deriving DecidableEq

/-- A shared registry and how many hold it. -/
structure Place where
  registry : SharedRegistry
  holders : Nat

/-- What a registry is kept for. -/
inductive Use where
  | sign (digest : Bytes)
  | assemble (t : PreparedTransaction)
  | header (t : PreparedTransaction)
  | complete (u : UnsignedTransaction)

inductive Request where
  | share (r : Registry)
  | clone (holder : Holder)
  | snapshot (holder : Holder)
  | replace (holder : Holder) (r : Registry)
  | use (kept : Nat) (what : Use)

inductive Reply where
  | holder (holder : Holder)
  | kept (number : Nat) (r : Registry)
  | signatures (result : Except SigningError SignatureMap)
  | unsigned (result : Except TransactionError UnsignedTransaction)
  | transaction (result : Except TransactionError SignedTransaction)

/-- What a registry gives when it is used. -/
def Use.reply (r : Registry) : Use → Reply
  | .sign digest => .signatures (r.sign digest)
  | .assemble t => .transaction (t.sign r)
  | .header t => .unsigned (t.withSignatureCount (UInt32.ofNat r.count))
  | .complete u => .transaction (u.sign r)

/-- The requests so far with their replies, the oldest first. -/
abbrev Log := List (Request × Reply)

end Sharing

/-- All registries that are shared, and those that were obtained from them, by their numbers. -/
structure Sharing where
  places : List Sharing.Place
  kept : List Registry

namespace Sharing

def start : Sharing := ⟨[], []⟩

/-- What a holder holds, if there is such a holder. -/
def place? (s : Sharing) (h : Holder) : Option Place :=
  s.places[h.shared]?.filter fun p => h.number < p.holders

/-- One step; there is none for a holder or a kept registry that does not exist. -/
def perform (s : Sharing) : Request → Option (Reply × Sharing)
  | .share r =>
      some (.holder ⟨s.places.length, 0⟩, { s with places := s.places ++ [⟨⟨r⟩, 1⟩] })
  | .clone h => do
      let p ← s.place? h
      some (.holder ⟨h.shared, p.holders⟩,
        { s with places := s.places.set h.shared { p with holders := p.holders + 1 } })
  | .snapshot h => do
      let p ← s.place? h
      let r := p.registry.snapshot
      some (.kept s.kept.length r, { s with kept := s.kept ++ [r] })
  | .replace h r => do
      let p ← s.place? h
      let (previous, registry) := p.registry.replace r
      some (.kept s.kept.length previous,
        ⟨s.places.set h.shared { p with registry }, s.kept ++ [previous]⟩)
  | .use k what => do
      let r ← s.kept[k]?
      some (what.reply r, s)

/-- The steps of all holders in the order in which they happen. -/
def run (s : Sharing) : List Request → Option (Log × Sharing)
  | [] => some ([], s)
  | q :: requests => do
      let (reply, s') ← s.perform q
      let (log, last) ← s'.run requests
      some ((q, reply) :: log, last)

end Sharing

end AccountTx
