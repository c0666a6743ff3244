/-
  CommitteeSync.Proofs.WriteCounts — what the count of a committee counts.

  An entry of a store carries a count that goes up by one each time its committee is placed.
  A transaction that stages several committees of one slot and index places all of them, so
  the count is of the committees staged and not of the transactions that staged them.

  Proved, for any steps over any number of handles and open transactions (`write_counts`):
  (1) The count of a key is the number of committees of this key in all the transactions
      committed to the store, and it is positive just if the key is listed. The store has
      counted each of these transactions once.
  (2) It is never less than the number of transactions that staged the key, and it is that
      number if and only if none of them staged it twice. Then it is no more than the number
      of commits; one transaction that stages a key twice is enough to exceed it
      (`write_counted_twice`).
-/

import CommitteeSync.Proofs.SerialStore
import Mathlib.Algebra.GroupWithZero.Nat

namespace CommitteeSync

/-! ## Counts among entries -/

/-- The count of this key among the entries. -/
def writesAt (es : List Entry) (key : CommitteeKey) : Nat :=
  ((es.find? fun e => e.committee.key = key).map (·.writes)).getD 0

theorem Store.writeCount_eq (s : Store) (key : CommitteeKey) : s.writeCount key = writesAt s.entries key := by
  have hsame : (fun e : Entry => e.committee.key == key) = fun e => decide (e.committee.key = key) := by
    funext e
    exact Bool.beq_eq_decide_eq ..
  rw [writeCount, writesAt, hsame]
  cases s.entries.find? fun e => e.committee.key = key <;> rfl

theorem writesAt_cons (e : Entry) (es : List Entry) (key : CommitteeKey) :
    writesAt (e :: es) key = if e.committee.key = key then e.writes else writesAt es key := by
  unfold writesAt
  by_cases h : e.committee.key = key <;> simp [h]

theorem writesAt_absent {es : List Entry} {key : CommitteeKey} (h : ∀ e ∈ es, e.committee.key ≠ key) : writesAt es key = 0 := by
  rw [writesAt, List.find?_eq_none.2 fun e he => by simpa using h e he]
  rfl

/-- Placing a committee counts it, and counts for no other key. -/
theorem writesAt_placeEntry (c : Committee) {es : List Entry} (h : InKeyOrder (es.map (·.committee))) (key : CommitteeKey) :
    writesAt (placeEntry c es) key = writesAt es key + if c.key = key then 1 else 0 := by
  induction es with
  | nil => exact (writesAt_cons ⟨c, 1⟩ [] key).trans (Nat.zero_add _).symm
  | cons e es ih =>
    obtain ⟨hhead, htail⟩ := List.pairwise_cons.1 h
    unfold placeEntry
    split
    · rename_i hlt
      rw [writesAt_cons]
      dsimp only
      split
      · -- All the entries are further on, so none of them is of this key.
        rename_i hk
        rw [writesAt_absent]
        intro d hd
        rw [← hk]
        rcases List.mem_cons.1 hd with rfl | hd
        · exact (CommitteeKey.ne_of_lt hlt).symm
        · exact (CommitteeKey.ne_of_lt (CommitteeKey.lt_trans hlt (hhead _ (List.mem_map_of_mem hd)))).symm
      · rfl
    · split
      · rename_i hk
        rw [writesAt_cons, writesAt_cons, ← hk]
        dsimp only
        split <;> rfl
      · rename_i hk
        rw [writesAt_cons, writesAt_cons, ih htail]
        split
        · rename_i he
          rw [if_neg fun hc => hk (hc.trans he.symm)]
          rfl
        · rfl

theorem writesAt_placed (cs : List Committee) {es : List Entry} (h : InKeyOrder (es.map (·.committee))) (key : CommitteeKey) :
    writesAt (cs.foldl (fun es c => placeEntry c es) es) key = writesAt es key + cs.countP (·.key = key) := by
  induction cs generalizing es with
  | nil => rfl
  | cons c cs ih =>
    have hplaced : InKeyOrder ((placeEntry c es).map (·.committee)) := by
      rw [map_placeEntry]
      exact inKeyOrder_place c h
    rw [List.foldl_cons, ih hplaced, writesAt_placeEntry c h, List.countP_cons]
    simp only [decide_eq_true_eq]
    omega

/-! ## Counts of transactions -/

namespace Transaction

/-- How many committees of this key are staged. -/
def stagings (tx : Transaction) (key : CommitteeKey) : Nat := tx.committees.countP (·.key = key)

/-- Whether a committee of this key is staged. -/
def writes (tx : Transaction) (key : CommitteeKey) : Bool := 0 < tx.stagings key

end Transaction

/-- Of all these numbers as many are positive as they come to together, if none is above one,
    and fewer otherwise. -/
theorem countP_pos_sum (ns : List Nat) :
    ns.countP (0 < ·) ≤ ns.sum ∧ (ns.sum = ns.countP (0 < ·) ↔ ∀ n ∈ ns, n ≤ 1) := by
  induction ns with
  | nil => simp
  | cons n ns ih =>
    rw [List.countP_cons, List.sum_cons, List.forall_mem_cons, ← ih.2]
    simp only [decide_eq_true_eq]
    split <;> omega

theorem sum_stagings (txs : List Transaction) (key : CommitteeKey) :
    (txs.flatMap (·.committees)).countP (·.key = key) = (txs.map (·.stagings key)).sum := by
  rw [List.countP_flatMap]
  rfl

theorem countP_writes (txs : List Transaction) (key : CommitteeKey) :
    txs.countP (·.writes key) = (txs.map (·.stagings key)).countP (0 < ·) := by
  rw [List.countP_map]
  rfl

namespace Store

/-- The transaction that an update is. -/
def Update.transaction? : Update → Option Transaction
  | put _ _ => none
  | transaction tx => some tx

theorem committees_transactions (us : List Update) :
    us.flatMap Update.committees = (us.filterMap Update.transaction?).flatMap (·.committees) := by
  induction us with
  | nil => rfl
  | cons u us ih =>
    rw [List.flatMap_cons, ih]
    cases u <;> rfl

theorem commits_updates (us : List Update) (s : Store) :
    (us.foldl update s).commits = s.commits + (us.filterMap Update.transaction?).length := by
  induction us generalizing s with
  | nil => rfl
  | cons u us ih =>
    rw [List.foldl_cons, ih]
    cases u with
    | put key value => rfl
    | transaction tx =>
      show s.commits + 1 + _ = s.commits + (_ + 1)
      omega

theorem byUpdates_commits : ByUpdates Store.commits := by
  refine ⟨fun _ => rfl, fun _ => rfl, fun h u => ?_⟩
  cases u with
  | put key value => exact h
  | transaction tx => exact congrArg (· + 1) h

/-- The counts of a store to which these transactions, and no others, were committed. -/
structure Counts (s : Store) (txs : List Transaction) : Prop where
  commits : s.commits = txs.length
  writes : ∀ key, s.writeCount key = (txs.map (·.stagings key)).sum
  listed : ∀ key, 0 < s.writeCount key ↔ ∃ c ∈ s.committees, c.key = key
  least : ∀ key, txs.countP (·.writes key) ≤ s.writeCount key
  /-- Transactions are counted just as long as none counts twice. -/
  single : ∀ key, s.writeCount key = txs.countP (·.writes key) ↔ ∀ tx ∈ txs, tx.stagings key ≤ 1
  bounded : ∀ key, (∀ tx ∈ txs, tx.stagings key ≤ 1) → s.writeCount key ≤ s.commits

theorem counts_of_writes {s : Store} {txs : List Transaction} (hcommits : s.commits = txs.length)
    (hwrites : ∀ key, s.writeCount key = (txs.map (·.stagings key)).sum)
    (hlisted : ∀ key, 0 < s.writeCount key ↔ ∃ c ∈ s.committees, c.key = key) : s.Counts txs := by
  have hsum : ∀ key, txs.countP (·.writes key) ≤ s.writeCount key ∧
      (s.writeCount key = txs.countP (·.writes key) ↔ ∀ tx ∈ txs, tx.stagings key ≤ 1) := by
    intro key
    have hpos := countP_pos_sum (txs.map (·.stagings key))
    rwa [← countP_writes, ← hwrites, List.forall_mem_map] at hpos
  refine ⟨hcommits, hwrites, hlisted, fun key => (hsum key).1, fun key => (hsum key).2, fun key hone => ?_⟩
  rw [(hsum key).2.2 hone, hcommits]
  exact List.countP_le_length

end Store

/-! ## Along a run -/

namespace Pool

open Store (replay)

/-- The transactions that were committed to the store of `handle`, in order. -/
def committed (steps : List Step) (handle : String) : List Transaction :=
  (updates steps handle).filterMap Store.Update.transaction?

/-- The count of a key is of the committees staged under it. -/
theorem writeCount_run (first : String) (steps : List Step) (handle : String) (key : CommitteeKey) :
    ((run first steps).store handle).writeCount key =
      ((committed steps handle).flatMap (·.committees)).countP (·.key = key) := by
  have hentries : ((run first steps).store handle).entries = (replay (updates steps handle)).entries :=
    congrArg Prod.snd (contents_run first steps handle)
  have hempty : InKeyOrder (Store.empty.entries.map (·.committee)) := List.Pairwise.nil
  rw [Store.writeCount_eq, hentries, replay, Store.entries_updates, writesAt_placed _ hempty, Store.committees_transactions]
  exact Nat.zero_add _

/-- However transactions are opened, staged and ended side by side, a store counts the
    committees that were staged, and its commits. -/
theorem write_counts (first : String) (steps : List Step) (handle : String) :
    ((run first steps).store handle).Counts (committed steps handle) := by
  refine Store.counts_of_writes ?_ (fun key => ?_) fun key => ?_
  · rw [view_run Store.byUpdates_commits first steps handle, replay, Store.commits_updates]
    exact Nat.zero_add _
  · rw [writeCount_run, sum_stagings]
  · have hreads := Store.readsAs_of_contents (contents_run first steps handle)
    rw [writeCount_run, committed, ← Store.committees_transactions, List.countP_pos_iff]
    constructor
    · -- Of what was staged under the key the last is listed.
      rintro ⟨c, hc, hk⟩
      obtain ⟨d, hd⟩ := findRev?_exists hc
      have hdk := (findRev?_mem hd).2
      rw [← hdk] at hd
      exact ⟨d, (hreads.committees d).2 hd, hdk.trans (of_decide_eq_true hk)⟩
    · rintro ⟨c, hc, rfl⟩
      exact ⟨c, (findRev?_mem ((hreads.committees c).1 hc)).1, decide_eq_true rfl⟩

/-- One transaction stages two committees of one slot and index. -/
theorem write_counted_twice :
    let steps : List Step := [.begin "a" "t", .put "t" ⟨3, 0, [7]⟩, .put "t" ⟨3, 0, [8]⟩, .commit "a" "t"]
    ((run "a" steps).store "a").writeCount (3, 0) = 2 ∧ (committed steps "a").countP (·.writes (3, 0)) = 1 ∧
      ((run "a" steps).store "a").commits = 1 := by
  decide

end Pool

end CommitteeSync
