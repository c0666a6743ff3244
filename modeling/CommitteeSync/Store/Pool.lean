/-
  CommitteeSync.Store.Pool — many stores and many open transactions side by side.

  Store handles share state when one was cloned from the other. Transactions are open under
  a name, are not tied to the store that began them, and may be staged in any interleaving;
  beginning one under a name that is taken drops the one that was open there.
-/

import CommitteeSync.Store.Basic

namespace CommitteeSync

structure Pool where
  /-- The store each handle stands for. -/
  handles : List (String × Nat)
  stores : List Store
  openTx : List (String × Transaction)

namespace Pool

/-- One store under the handle `name`, nothing open. -/
def single (name : String) : Pool := ⟨[(name, 0)], [Store.empty], []⟩

inductive Step where
  | begin (store tx : String)
  | set (tx key : String) (value : Bytes)
  | put (tx : String) (c : Committee)
  | commit (store tx : String)
  | cancel (store tx : String)
  | drop (tx : String)
  | seed (store key : String) (value : Bytes)
  | clone (store copy : String)
  | fresh (name : String)
  deriving Repr

def storeId (p : Pool) (name : String) : Nat := (p.handles.lookup name).getD 0

def store (p : Pool) (name : String) : Store := (p.stores[p.storeId name]?).getD Store.empty

def tx (p : Pool) (name : String) : Transaction := (p.openTx.lookup name).getD Transaction.empty

def bindHandle (p : Pool) (name : String) (id : Nat) : Pool :=
  { p with handles := (name, id) :: p.handles.filter (fun h => h.1 != name) }

def update (p : Pool) (name : String) (f : Store → Store) : Pool :=
  { p with stores := p.stores.modify (p.storeId name) f }

def close (p : Pool) (tx : String) : Pool := { p with openTx := p.openTx.filter (fun t => t.1 != tx) }

def stage (p : Pool) (tx : String) (f : Transaction → Transaction) : Pool :=
  { p with openTx := p.openTx.map fun t => if t.1 = tx then (t.1, f t.2) else t }

def apply (p : Pool) : Step → Pool
  | .begin store tx =>
    let p := (p.close tx).update store Store.begin
    { p with openTx := (tx, Transaction.empty) :: p.openTx }
  | .set tx key value => p.stage tx (·.setMetadata key value)
  | .put tx c => p.stage tx (·.putCommittee c)
  | .commit store tx => (p.update store (·.commit (p.tx tx))).close tx
  | .cancel store tx => (p.update store Store.cancel).close tx
  | .drop tx => p.close tx
  | .seed store key value => p.update store (·.putMetadata key value)
  | .clone store copy => p.bindHandle copy (p.storeId store)
  | .fresh name => { p.bindHandle name p.stores.length with stores := p.stores ++ [Store.empty] }

end Pool

end CommitteeSync
