/-
  CommitteeSync.Proofs.SerialStore — stores and open transactions side by side come to a
  serial reference.

  The reference knows no shared state. It keeps, for each transaction by itself, what the
  steps of that transaction have staged, and writes a journal: one entry for each value put
  and each transaction committed, with the store it goes to (`Books`, `journal`).

  Proved, for any steps over any number of handles and open transactions: the books are right
  about the pool (`Tracks.apply`), and a step brings every store on by the entries that it
  adds to the journal (`view_apply`). So each store holds what its own entries, one after
  another, make of an empty store (`contents_run`), and shows as much of it in any view that
  updates alone decide (`view_run`).
-/

import CommitteeSync.Proofs.StoreReads
import CommitteeSync.Store.Pool

namespace CommitteeSync.Pool

open Store (Update replay)

/-- The pool after these steps. -/
def run (first : String) (steps : List Step) : Pool := steps.foldl apply (single first)

/-! ## The reference -/

namespace Step

/-- The transaction that a step is about. -/
def tx? : Step → Option String
  | begin _ tx | set tx _ _ | put tx _ | commit _ tx | cancel _ tx | drop tx => some tx
  | seed _ _ _ | clone _ _ | fresh _ => none

/-- What a step about a transaction makes of what is staged there. -/
def staging (open? : Option Transaction) : Step → Option Transaction
  | begin _ _ => some Transaction.empty
  | set _ key value => open?.map (·.setMetadata key value)
  | put _ c => open?.map (·.putCommittee c)
  | commit _ _ | cancel _ _ | drop _ => none
  | seed _ _ _ | clone _ _ | fresh _ => open?

end Step

/-- Which store each handle stands for, and how many stores there are. -/
structure Naming where
  home : String → Nat
  stores : Nat

def Naming.next (n : Naming) : Step → Naming
  | .clone store copy => { n with home := fun name => if name = copy then n.home store else n.home name }
  | .fresh new => ⟨fun name => if name = new then n.stores else n.home name, n.stores + 1⟩
  | _ => n

/-- What there is to know beside the stores: the names, and what is staged in each transaction. -/
structure Books where
  names : Naming
  staged : String → Option Transaction

namespace Books

/-- One store, nothing open. -/
def start : Books := ⟨⟨fun _ => 0, 1⟩, fun _ => none⟩

/-- A step changes what is staged in its own transaction. -/
def next (b : Books) (s : Step) : Books :=
  ⟨b.names.next s, fun tx => if s.tx? = some tx then s.staging (b.staged tx) else b.staged tx⟩

/-- The store that a step updates, and with what. -/
def entry (b : Books) : Step → Option (Nat × Update)
  | .commit store tx => some (b.names.home store, .transaction ((b.staged tx).getD Transaction.empty))
  | .seed store key value => some (b.names.home store, .put key value)
  | _ => none

theorem staged_next (b : Books) (s : Step) {tx : String} (h : s.tx? = some tx) (name : String) :
    (b.next s).staged name = if tx = name then s.staging (b.staged name) else b.staged name := by
  simp only [next, h, Option.some_inj]

theorem staged_other (b : Books) {s : Step} {tx : String} (h : s.tx? ≠ some tx) : (b.next s).staged tx = b.staged tx :=
  if_neg h

end Books

/-- The updates of all stores in order. -/
def journal (b : Books) : List Step → List (Nat × Update)
  | [] => []
  | s :: steps => (b.entry s).toList ++ journal (b.next s) steps

/-- The updates of one store. -/
def entriesOf (store : Nat) (j : List (Nat × Update)) : List Update := (j.filter fun e => e.1 = store).map (·.2)

/-- The updates of the store that `handle` stands for after these steps. -/
def updates (steps : List Step) (handle : String) : List Update :=
  entriesOf ((steps.foldl Books.next .start).names.home handle) (journal .start steps)

theorem entriesOf_append (store : Nat) (j j' : List (Nat × Update)) :
    entriesOf store (j ++ j') = entriesOf store j ++ entriesOf store j' := by
  rw [entriesOf, List.filter_append, List.map_append]
  rfl

/-! ## The pool keeps to the reference -/

theorem lookup_erased {α : Type} (key : String) (m : List (String × α)) :
    (m.filter fun kv => kv.1 != key).lookup key = none := by
  rw [List.lookup_eq_none_iff]
  intro kv hkv
  have hne := (List.mem_filter.1 hkv).2
  rw [bne_iff_ne] at hne ⊢
  exact hne.symm

theorem lookup_cons_self {α : Type} (key : String) (value : α) (m : List (String × α)) :
    ((key, value) :: m).lookup key = some value := by
  rw [List.lookup_cons, beq_self_eq_true]

theorem lookup_staged (tx name : String) (f : Transaction → Transaction) (m : List (String × Transaction)) :
    (m.map fun t => if t.1 = tx then (t.1, f t.2) else t).lookup name =
      if tx = name then (m.lookup name).map f else m.lookup name := by
  induction m with
  | nil => exact (ite_self none).symm
  | cons t m ih =>
    obtain ⟨t, open'⟩ := t
    rw [List.map_cons]
    by_cases ht : t = tx
    · subst ht
      rw [if_pos rfl]
      by_cases hn : t = name
      · subst hn
        rw [if_pos rfl, lookup_cons_self, lookup_cons_self]
        rfl
      · rw [lookup_cons_ne (Ne.symm hn), ih, if_neg hn, if_neg hn, lookup_cons_ne (Ne.symm hn)]
    · rw [if_neg ht]
      by_cases hn : t = name
      · subst hn
        rw [lookup_cons_self, lookup_cons_self, if_neg (Ne.symm ht)]
      · rw [lookup_cons_ne (Ne.symm hn), ih, lookup_cons_ne (Ne.symm hn)]

/-- The books are right about the pool. -/
structure Tracks (p : Pool) (b : Books) : Prop where
  home : ∀ name, p.storeId name = b.names.home name
  stores : p.stores.length = b.names.stores
  staged : ∀ tx, p.openTx.lookup tx = b.staged tx
  within : ∀ name, b.names.home name < b.names.stores

/-- What shows of the store of this number. -/
def view {α : Type} (f : Store → α) (p : Pool) (store : Nat) : α := f (p.stores[store]?.getD Store.empty)

variable {p : Pool} {b : Books}

theorem tracks_single (first : String) : Tracks (single first) .start := by
  refine ⟨fun name => ?_, rfl, fun _ => rfl, fun _ => Nat.one_pos⟩
  show (List.lookup name [(first, 0)]).getD 0 = 0
  by_cases hn : name = first
  · rw [hn, lookup_cons_self]
    rfl
  · rw [lookup_cons_ne hn]
    rfl

theorem storeId_bindHandle (p : Pool) (bound : String) (store : Nat) (name : String) :
    (p.bindHandle bound store).storeId name = if name = bound then store else p.storeId name := by
  unfold storeId bindHandle
  by_cases h : name = bound
  · rw [if_pos h, h, lookup_cons_self]
    rfl
  · rw [if_neg h, lookup_cons_ne h, lookup_filter_ne h]

theorem lookup_close (p : Pool) (tx name : String) :
    (p.close tx).openTx.lookup name = if tx = name then none else p.openTx.lookup name := by
  unfold close
  by_cases h : tx = name
  · rw [if_pos h, ← h, lookup_erased]
  · rw [if_neg h, lookup_filter_ne (Ne.symm h)]

namespace Tracks

theorem home_apply (h : Tracks p b) (s : Step) (name : String) :
    (p.apply s).storeId name = (b.next s).names.home name := by
  cases s with
  | clone store copy =>
    refine (storeId_bindHandle p copy _ name).trans ?_
    rw [h.home, h.home]
    rfl
  | fresh new =>
    refine (storeId_bindHandle p new _ name).trans ?_
    rw [h.home, h.stores]
    rfl
  | begin store tx => exact h.home name
  | set tx key value => exact h.home name
  | put tx c => exact h.home name
  | commit store tx => exact h.home name
  | cancel store tx => exact h.home name
  | drop tx => exact h.home name
  | seed store key value => exact h.home name

theorem stores_apply (h : Tracks p b) (s : Step) : (p.apply s).stores.length = (b.next s).names.stores := by
  have hupdate : ∀ f name, (p.stores.modify (p.storeId name) f).length = b.names.stores := fun f name =>
    (List.length_modify ..).trans h.stores
  cases s with
  | begin store tx => exact hupdate ..
  | commit store tx => exact hupdate ..
  | cancel store tx => exact hupdate ..
  | seed store key value => exact hupdate ..
  | fresh new =>
    show (p.stores ++ [Store.empty]).length = b.names.stores + 1
    rw [List.length_append, h.stores]
    rfl
  | set tx key value => exact h.stores
  | put tx c => exact h.stores
  | drop tx => exact h.stores
  | clone store copy => exact h.stores

theorem staged_apply (h : Tracks p b) (s : Step) (name : String) :
    (p.apply s).openTx.lookup name = (b.next s).staged name := by
  have hclose : ∀ tx, (p.close tx).openTx.lookup name = if tx = name then none else b.staged name := fun tx => by
    rw [lookup_close, h.staged]
  have hstage : ∀ tx f, (p.stage tx f).openTx.lookup name =
      if tx = name then (b.staged name).map f else b.staged name := fun tx f => by
    rw [← h.staged]
    exact lookup_staged tx name f p.openTx
  cases s with
  | begin store tx =>
    rw [b.staged_next (.begin store tx) rfl]
    show List.lookup name ((tx, Transaction.empty) :: (p.close tx).openTx) = _
    by_cases ht : tx = name
    · rw [if_pos ht, ← ht, lookup_cons_self]
      rfl
    · rw [if_neg ht, lookup_cons_ne (Ne.symm ht), hclose, if_neg ht]
  | set tx key value => exact (hstage tx _).trans (b.staged_next (.set tx key value) rfl name).symm
  | put tx c => exact (hstage tx _).trans (b.staged_next (.put tx c) rfl name).symm
  | commit store tx => exact (hclose tx).trans (b.staged_next (.commit store tx) rfl name).symm
  | cancel store tx => exact (hclose tx).trans (b.staged_next (.cancel store tx) rfl name).symm
  | drop tx => exact (hclose tx).trans (b.staged_next (.drop tx) rfl name).symm
  | seed store key value => exact h.staged name
  | clone store copy => exact h.staged name
  | fresh new => exact h.staged name

theorem within_next (h : ∀ name, b.names.home name < b.names.stores) (s : Step) (name : String) :
    (b.next s).names.home name < (b.next s).names.stores := by
  cases s with
  | clone store copy =>
    show (if name = copy then b.names.home store else b.names.home name) < b.names.stores
    split
    · exact h store
    · exact h name
  | fresh new =>
    show (if name = new then b.names.stores else b.names.home name) < b.names.stores + 1
    split
    · exact Nat.lt_succ_self _
    · exact Nat.lt_succ_of_lt (h name)
  | begin store tx => exact h name
  | set tx key value => exact h name
  | put tx c => exact h name
  | commit store tx => exact h name
  | cancel store tx => exact h name
  | drop tx => exact h name
  | seed store key value => exact h name

theorem apply (h : Tracks p b) (s : Step) : Tracks (p.apply s) (b.next s) :=
  ⟨h.home_apply s, h.stores_apply s, h.staged_apply s, within_next h.within s⟩

end Tracks

/-! ## The stores hold the journal -/

section View

variable {α : Type} {f : Store → α}

theorem view_modified (stores : List Store) (changed : Nat) (g : Store → Store) (store : Nat)
    (hin : changed < stores.length) :
    f ((stores.modify changed g)[store]?.getD Store.empty) =
      if changed = store then f (g (stores[store]?.getD Store.empty)) else f (stores[store]?.getD Store.empty) := by
  rw [List.getElem?_modify]
  by_cases h : changed = store
  · subst h
    rw [List.getElem?_eq_getElem hin]
    simp
  · simp [h]

/-- A step brings a store on by its own entries. -/
theorem view_apply (hf : Store.ByUpdates f) (h : Tracks p b) (s : Step) {store : Nat} {us : List Update}
    (hc : p.view f store = f (replay us)) :
    (p.apply s).view f store = f (replay (us ++ entriesOf store (b.entry s).toList)) := by
  have hcounts : ∀ g : Store → Store, (∀ st, f (g st) = f st) → ∀ name,
      (p.update name g).view f store = f (replay us) := fun g hg name => by
    refine (view_modified p.stores _ g store (h.stores ▸ h.home name ▸ h.within name)).trans ?_
    rw [hg]
    exact (ite_self _).trans hc
  have hwrites : ∀ u name, (p.update name (·.update u)).view f store =
      f (replay (us ++ entriesOf store [(b.names.home name, u)])) := fun u name => by
    refine (view_modified p.stores _ _ store (h.stores ▸ h.home name ▸ h.within name)).trans ?_
    rw [h.home]
    by_cases hs : b.names.home name = store
    · rw [if_pos hs, show entriesOf store [(b.names.home name, u)] = [u] by simp [entriesOf, hs], replay, List.foldl_append]
      exact hf.update hc u
    · rw [if_neg hs, show entriesOf store [(b.names.home name, u)] = [] by simp [entriesOf, hs], List.append_nil]
      exact hc
  have hsame : ∀ q : Pool, q.view f store = p.view f store →
      q.view f store = f (replay (us ++ entriesOf store [])) := fun q hq => by
    rw [hq, hc, show entriesOf store [] = [] from rfl, List.append_nil]
  cases s with
  | commit store' tx =>
    rw [Books.entry, ← h.staged]
    exact hwrites (.transaction (p.tx tx)) store'
  | seed store' key value => exact hwrites (.put key value) store'
  | begin store' tx => exact hsame _ ((hcounts Store.begin hf.begin store').trans hc.symm)
  | cancel store' tx => exact hsame _ ((hcounts Store.cancel hf.cancel store').trans hc.symm)
  | set tx key value => exact hsame _ rfl
  | put tx c => exact hsame _ rfl
  | drop tx => exact hsame _ rfl
  | clone store' copy => exact hsame _ rfl
  | fresh new =>
    refine hsame _ ?_
    show f ((p.stores ++ [Store.empty])[store]?.getD Store.empty) = _
    rw [List.getElem?_append]
    split
    · rfl
    · rename_i hout
      rw [view, List.getElem?_eq_none (Nat.not_lt.1 hout)]
      cases store - p.stores.length <;> rfl

/-- The pool after a run: the books are right, and every store holds its entries of the journal. -/
theorem run_tracks (hf : Store.ByUpdates f) (h : Tracks p b) (us : Nat → List Update)
    (hc : ∀ store, p.view f store = f (replay (us store))) (steps : List Step) :
    Tracks (steps.foldl apply p) (steps.foldl Books.next b) ∧
    ∀ store, (steps.foldl apply p).view f store = f (replay (us store ++ entriesOf store (journal b steps))) := by
  induction steps generalizing p b us with
  | nil =>
    refine ⟨h, fun store => ?_⟩
    rw [show entriesOf store (journal b []) = [] from rfl, List.append_nil]
    exact hc store
  | cons s steps ih =>
    obtain ⟨htracks, hholds⟩ := ih (h.apply s) _ fun store => view_apply hf h s (hc store)
    refine ⟨htracks, fun store => (hholds store).trans ?_⟩
    rw [journal, entriesOf_append, List.append_assoc]

/-- Every store shows what the updates of any of its handles make of an empty store. -/
theorem view_run (hf : Store.ByUpdates f) (first : String) (steps : List Step) (handle : String) :
    f ((run first steps).store handle) = f (replay (updates steps handle)) := by
  obtain ⟨htracks, hholds⟩ := run_tracks hf (tracks_single first) (fun _ => [])
    (fun store => by cases store <;> rfl) steps
  refine Eq.trans ?_ (hholds _)
  rw [← htracks.home]
  rfl

end View

/-- Every store holds what its updates make of an empty store. -/
theorem contents_run (first : String) (steps : List Step) (handle : String) :
    ((run first steps).store handle).contents = (replay (updates steps handle)).contents :=
  view_run Store.byUpdates_contents first steps handle

end CommitteeSync.Pool
