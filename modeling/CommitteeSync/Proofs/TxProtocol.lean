/-
  CommitteeSync.Proofs.TxProtocol — every transaction is disposed of once.

  The write of an epoch calls in one order: begin, fetch, a put for every assignment that was
  served, set, commit (`script`). It may be left after any of these calls, and each way out
  disposes of the transaction: nothing to do before it has begun, one cancellation between
  begin and commit, and after the commit call nothing any more.

  Proved, for any tasks in any interleaving, with any calls failing and any tokens cancelled
  (`tx_protocol`):
  (1) The calls of an open write so far, since the turn in which it asked for its transaction,
      are a prefix of the script.
  (2) In its next turn the write makes the next call, or it is over: so it is if the reply was
      a failure. The transaction then ends by one commit call or one cancellation, and what the
      task calls next is for something else.
  (3) So the transactions begun are those committed, cancelled, refused in commit or held open,
      and none is held when no write is open.
-/

import CommitteeSync.Proofs.TaskCalls

namespace CommitteeSync

open Turn

variable (env : Setup)

/-! ## The calls of one epoch -/

def Assignment.put (a : Assignment) : Call := .put a.slot a.index

/-- The calls of the write of `epoch` whose fetch is answered with `as`. -/
def script (epoch : Epoch) (as : List Assignment) : List Call :=
  [.begin, .fetch (env.layout.firstSlot epoch)] ++ as.map Assignment.put ++ [.set ⟨epoch⟩, .commit]

namespace EpochWrite

/-- Whether the write holds a transaction open. -/
def holds : EpochWrite → Bool
  | .beginning => false
  | _ => true

/-- The calls that a write has made when it waits. -/
def calls (epoch : Epoch) (as : List Assignment) : EpochWrite → List Call
  | .beginning => [.begin]
  | .staging (.fetching _) => [.begin, .fetch (env.layout.firstSlot epoch)]
  | .staging (.putting tx _ _ _) =>
    [.begin, .fetch (env.layout.firstSlot epoch)] ++ (as.take (tx.staged + 1)).map Assignment.put
  | .recording _ _ => [.begin, .fetch (env.layout.firstSlot epoch)] ++ as.map Assignment.put ++ [.set ⟨epoch⟩]
  | .committing _ _ => script env epoch as

variable {epoch : Epoch} {as : List Assignment}

theorem calls_prefix (w : EpochWrite) : w.calls env epoch as <+: script env epoch as := by
  cases w with
  | beginning => exact ⟨_, rfl⟩
  | staging s =>
    cases s with
    | fetching tx => exact ⟨_, List.append_assoc .. |>.symm⟩
    | putting tx written next rest =>
      refine ⟨(as.drop (tx.staged + 1)).map Assignment.put ++ [.set ⟨epoch⟩, .commit], ?_⟩
      rw [calls, script, List.append_assoc, ← List.append_assoc (List.map _ _), ← List.map_append,
        List.take_append_drop,
        List.append_assoc]
  | recording tx written => exact ⟨[.commit], by rw [calls, script, List.append_assoc]; rfl⟩
  | committing tx written => exact List.prefix_refl _

/-- The commit call is the last, and the only one of its kind. -/
theorem count_commit (epoch : Epoch) (as : List Assignment) (w : EpochWrite) :
    (w.calls env epoch as).count .commit = match w with | .committing _ _ => 1 | _ => 0 := by
  have hputs : ∀ as : List Assignment, (as.map Assignment.put).count .commit = 0 := by
    intro as
    rw [List.count_eq_zero]
    simp [Assignment.put]
  cases w with
  | beginning => rfl
  | staging s =>
    cases s with
    | fetching tx => rfl
    | putting tx written next rest =>
      rw [calls, List.count_append, hputs]
      rfl
  | recording tx written =>
    rw [calls, List.count_append, List.count_append, hputs]
    rfl
  | committing tx written =>
    rw [calls, script, List.count_append, List.count_append, hputs]
    rfl

/-- Up to the assignment that is being put when those before it are staged. -/
theorem take_staged (done : List Assignment) (next : Assignment) (rest : List Assignment) :
    (done ++ next :: rest).take (Transaction.staged ⟨[], done.map Committee.ofAssignment⟩ + 1) = done ++ [next] := by
  have hlen : Transaction.staged ⟨[], done.map Committee.ofAssignment⟩ = done.length := by simp [Transaction.staged]
  rw [hlen, List.take_length_add_append]
  rfl

/-- Before the answer to the fetch the calls do not depend on it. -/
theorem calls_of_fresh {w : EpochWrite} (h : w.Fresh) (epoch : Epoch) (as as' : List Assignment) :
    w.calls env epoch as = w.calls env epoch as' := by
  cases w with
  | beginning => rfl
  | staging s =>
    cases s with
    | fetching tx => rfl
    | putting tx written next rest => exact h.elim
  | recording tx written => exact h.elim
  | committing tx written => exact h.elim

/-- The call after `done` is that of the next assignment, or of the record. -/
theorem calls_advance (epoch : Epoch) (token : Token) (done : List Assignment) {rest : List Assignment}
    (written : Nat) (sh : Shared)
    (has : as = done ++ rest) :
    Yields (andThen (Staging.advance env epoch ⟨[], done.map Committee.ofAssignment⟩ written sh rest) .staging
      (record epoch))
      (fun _ w => w.calls env epoch as =
        [.begin, .fetch (env.layout.firstSlot epoch)] ++ done.map Assignment.put ++
          (w.waitsFor env token epoch).call?.toList)
      (fun _ _ => True) := by
  cases rest with
  | nil =>
    rw [List.append_nil] at has
    subst has
    exact rfl
  | cons a rest =>
    simp only [Staging.advance]
    split
    · subst has
      show _ ++ List.map Assignment.put (List.take _ _) = _
      rw [take_staged, List.map_append]
      exact (List.append_assoc ..).symm
    · trivial

/-- Once the fetch is answered every turn of the write that goes on makes its next call. -/
theorem calls_resume (token : Token) (sh : Shared) (w : EpochWrite) (reply : Reply) (h : w.Stages env epoch as) :
    Yields (w.resume env token epoch sh reply)
      (fun _ w' => w'.calls env epoch as = w.calls env epoch as ++ (w'.waitsFor env token epoch).call?.toList)
      (fun _ _ => True) := by
  cases w with
  | beginning => exact h.elim
  | staging s =>
    cases s with
    | fetching tx => exact h.elim
    | putting tx written next rest =>
      obtain ⟨done, has, rfl, -⟩ := h
      simp only [resume]
      split
      · trivial
      · cases reply with
        | failed cause => trivial
        | granted =>
          have hs := calls_advance env epoch token (done ++ [next]) (written + 1) sh
            (show as = (done ++ [next]) ++ rest by rw [has, List.append_assoc]; rfl)
          rw [List.map_append] at hs
          refine hs.mono (fun _ w' hw => ?_) fun _ _ h => h
          rw [hw, calls, has, take_staged]
  | recording tx written =>
    simp only [resume]
    split
    · trivial
    · cases reply with
      | failed cause => trivial
      | granted =>
        show script env epoch as = _
        rw [script, calls, List.append_assoc _ _ (Option.toList _)]
        rfl
  | committing tx written => cases reply <;> trivial

/-- So does every turn before. -/
theorem calls_fresh (epoch : Epoch) (token : Token) (sh : Shared) (w : EpochWrite) (reply : Reply) (h : w.Fresh) :
    let as := sh.chain (env.layout.firstSlot epoch)
    Yields (w.resume env token epoch sh reply)
      (fun _ w' => w'.calls env epoch as = w.calls env epoch as ++ (w'.waitsFor env token epoch).call?.toList)
      (fun _ _ => True) := by
  dsimp only
  cases w with
  | beginning =>
    simp only [resume]
    split
    · trivial
    · cases reply with
      | failed cause => trivial
      | granted => exact rfl
  | staging s =>
    cases s with
    | putting tx written next rest => exact h.elim
    | fetching tx =>
      cases h
      unfold resume
      dsimp only
      split
      · trivial
      · cases reply with
        | failed cause => trivial
        | granted => exact calls_advance env epoch token [] 0 sh rfl
  | recording tx written => exact h.elim
  | committing tx written => exact h.elim

end EpochWrite

/-! ## The calls of an open write along a run -/

namespace System

variable {s s₀ : System} {acts : List Action} {id : Nat} {epoch : Epoch} {v : EpochWrite}

/-- Task `id` has the write `v` of `epoch` open after `acts`. It asked for its transaction in
    the turn after `before`, and its fetch, if it was answered, with `as`. -/
structure Invocation (s₀ : System) (acts : List Action) (id : Nat) (epoch : Epoch) (v : EpochWrite)
    (before since : List Action)
    (as : List Assignment) : Prop where
  split : acts = before ++ since
  begins : ∃ reply, [.turn id reply] <+: since ∧
    (run env s₀ (before ++ [.turn id reply])).write? id = some (epoch, .beginning)
  answer : v.Fresh ∨ v.Stages env epoch as ∧ Fetched env s₀ acts id epoch as
  calls : callsBy env id (run env s₀ before) since = v.calls env epoch as

theorem Invocation.snoc {a : Action} {v' : EpochWrite} {before since : List Action} {as as' : List Assignment}
    (h : Invocation env s₀ acts id epoch v before since as)
    (ha : v'.Fresh ∨ v'.Stages env epoch as' ∧ Fetched env s₀ (acts ++ [a]) id epoch as')
    (hc : v.calls env epoch as ++ callsOf env id (run env s₀ acts) a = v'.calls env epoch as') :
    Invocation env s₀ (acts ++ [a]) id epoch v' before (since ++ [a]) as' := by
  obtain ⟨rfl, ⟨reply, hr, hb⟩, -, hcalls⟩ := h
  refine ⟨List.append_assoc .., ⟨reply, hr.trans (List.prefix_append since [a]), hb⟩, ha, ?_⟩
  rw [callsBy, along_snoc, ← callsBy, hcalls, ← run_append]
  exact hc

/-- The calls of an open write so far are those of the script up to the one it waits for. -/
theorem invocation_run (hs : s₀.Idle) (h : (run env s₀ acts).write? id = some (epoch, v)) :
    ∃ before since as, Invocation env s₀ acts id epoch v before since as := by
  induction acts using List.reverseRecOn generalizing epoch v with
  | nil =>
    rw [run_nil, write?, hs.work?] at h
    cases h
  | append_singleton acts a ih =>
    have h' := h
    rw [run_snoc] at h
    by_cases ha : ∃ reply, a = .turn id reply
    · obtain ⟨reply, rfl⟩ := ha
      obtain ⟨w', hw', hv'⟩ := write?_eq_some.1 h
      obtain ⟨w, hw, -⟩ := work?_turn_eq_some env hw'
      have hk : w.kind ≠ .stage := by
        intro hk
        rw [← (turn_keeps env hw hw').1] at hk
        rw [Work.write?_of_stage hk] at hv'
        cases hv'
      have hcall := callsOf_turn env hw hk reply
      -- A write that is not the old one gone on has just begun.
      have hbegins : v = .beginning →
        ∃ before since as, Invocation env s₀ (acts ++ [.turn id reply]) id epoch v before since as := by
        rintro rfl
        refine ⟨acts, [.turn id reply], [], rfl, ⟨reply, List.prefix_refl _, h'⟩, Or.inl trivial, ?_⟩
        rw [callsBy, along, along, List.append_nil, hcall, pending?_of_write env h (.root 0)]
        rfl
      cases turned env hw hk reply with
      | closes token epoch' v' sh _ _ _ _ hon => exact hbegins (hon.fresh epoch v h)
      | closed _ hon => exact hbegins (hon.fresh epoch v h)
      | advances token epoch' v₀ v₁ hv₀ _ hres hadv hv₁ =>
        cases h.symm.trans hv₁
        obtain ⟨before, since, as, hinv⟩ := ih hv₀
        rw [pending?_of_write env h token] at hcall
        rcases hinv.answer with hf | ⟨hst, hfetched⟩
        · have hfresh := v₀.fresh_resume env epoch token (run env s₀ acts).shared reply hf
          have hcalls := v₀.calls_fresh env epoch token (run env s₀ acts).shared reply hf
          rw [hres] at hfresh hcalls
          have hsame := EpochWrite.calls_of_fresh env hf epoch as
            ((run env s₀ acts).shared.chain (env.layout.firstSlot epoch))
          refine ⟨before, _, _, hinv.snoc env ?_ (by rw [hcall, hsame]; exact hcalls.symm)⟩
          rcases hfresh with hf' | ⟨rfl, rfl, hst⟩
          · exact Or.inl hf'
          · exact Or.inr ⟨hst, fetched_now env hv₀ h' hst⟩
        · have hst' := v₀.stages_resume env token (run env s₀ acts).shared reply hst
          have hcalls := v₀.calls_resume env token (run env s₀ acts).shared reply hst
          rw [hres] at hst' hcalls
          exact ⟨before, _, as, hinv.snoc env (Or.inr ⟨hst', hfetched.snoc env h' hst'⟩)
            (by rw [hcall]; exact hcalls.symm)⟩
    · have hne : ∀ reply, a ≠ .turn id reply := fun reply he => ha ⟨reply, he⟩
      obtain ⟨before, since, as, hinv⟩ := ih (write?_before env hne h)
      refine ⟨before, _, as, hinv.snoc env ?_ (by rw [callsOf_other env hne, List.append_nil])⟩
      rcases hinv.answer with hf | ⟨hst, hfetched⟩
      · exact Or.inl hf
      · exact Or.inr ⟨hst, hfetched.snoc env h' hst⟩

/-! ## The end of a transaction -/

/-- The write `v` of task `id` is over in the turn from `s` to `s'`, and the task has gone on. -/
structure Disposed (s s' : System) (id : Nat) (reply : Reply) (v : EpochWrite) : Prop where
  account : ∃ token a, s.token? id = some token ∧ v.Closes s.shared.account (s.shared.isCancelled token) reply a ∧
    s'.shared.account = a.ask (s'.pending? env id)
  /-- A transaction had its commit call or is cancelled, and never both. -/
  once : ∀ epoch as, s'.shared.store.cancellations + (v.calls env epoch as).count .commit =
    s.shared.store.cancellations + v.holds.toNat
  fresh : ∀ epoch v', s'.write? id = some (epoch, v') → v' = .beginning

theorem closes_once {v : EpochWrite} {a a' : Account} {interrupted : Bool} {reply : Reply}
    (h : v.Closes a interrupted reply a')
    (epoch : Epoch) (as : List Assignment) :
    a'.store.cancellations + (v.calls env epoch as).count .commit = a.store.cancellations + v.holds.toNat := by
  rw [EpochWrite.count_commit]
  cases h with
  | unbegun => rfl
  | cancelled _ tx staged hs _ =>
    cases v with
    | beginning => cases hs
    | committing tx written => cases hs
    | _ => rfl
  | committed tx written _ => rfl
  | refused tx written cause _ => rfl

/-- In its turn an open write makes its next call, or it is disposed of. -/
theorem advanced_or_disposed (h : s.write? id = some (epoch, v)) (reply : Reply) :
    let s' := act env s (.turn id reply)
    (∃ token v', v.Advances env token epoch s.shared reply s'.shared v' ∧ s'.write? id = some (epoch, v')) ∨
    Disposed env s s' id reply v := by
  dsimp only
  obtain ⟨w, hw, hv⟩ := write?_eq_some.1 h
  have hk : w.kind ≠ .stage := by
    intro hk
    rw [Work.write?_of_stage hk] at hv
    cases hv
  cases turned env hw hk reply with
  | advances token epoch' v₀ v' hv₀ _ _ hadv hv' =>
    cases h.symm.trans hv₀
    exact Or.inl ⟨token, v', hadv, hv'⟩
  | closes token epoch' v₀ sh hv₀ ht _ hcl hon =>
    cases h.symm.trans hv₀
    refine Or.inr ⟨⟨token, sh.account, ht, hcl, hon.account⟩, fun e as => ?_, hon.fresh⟩
    rw [hon.store]
    exact closes_once env hcl e as
  | closed hv₀ _ =>
    rw [h] at hv₀
    cases hv₀

end System

/-! ## Transactions held open -/

/-- Whether the task holds a transaction open. -/
def Task.holds : Task → Bool
  | .active w => w.write?.any (·.2.holds)
  | .ended _ => false

namespace System

variable {s s₀ : System} {acts : List Action} {a : Action} {id : Nat} {reply : Reply}

/-- The transactions held open by writes in progress. -/
def held (s : System) : Nat := s.tasks.countP Task.holds

/-- Whether task `id` holds one of them. -/
def holds (s : System) (id : Nat) : Bool := (s.write? id).any (·.2.holds)

/-- A commit call that fails. -/
def refusals (s : System) : Action → List Cause
  | .turn id (.failed cause) =>
    match s.write? id with
    | some (_, .committing _ _) => [cause]
    | _ => []
  | _ => []

theorem holds_of_tasks {task : Task} (h : s.tasks[id]? = some task) : task.holds = s.holds id := by
  cases task with
  | active w => rw [holds, write?_of_some (work?_eq_some.2 h), Task.holds]
  | ended o =>
    have hnone : s.work? id = none := by rw [work?, h]
    rw [holds, write?_of_none hnone]
    rfl

theorem holds_of_launched (before after : Shared) : (launched before after).countP Task.holds = 0 := by
  unfold launched
  split
  · simp [Task.holds, Work.write?]
  · rfl

/-- One task in the place of another. -/
theorem countP_set_toNat (p : Task → Bool) {tasks : List Task} (h : id < tasks.length) (task : Task) :
    (tasks.set id task).countP p + (p tasks[id]).toNat = tasks.countP p + (p task).toNat := by
  rw [List.countP_set h]
  cases hp : p tasks[id] with
  | false => cases p task <;> simp
  | true =>
    have hpos : 0 < tasks.countP p := List.countP_pos_iff.2 ⟨_, List.getElem_mem h, hp⟩
    cases p task <;> simp only [Bool.toNat_true, Bool.toNat_false, if_true, Bool.false_eq_true, if_false] <;> omega

/-- Only a turn of a task changes what is held. -/
theorem held_turn {w : Work} (hw : s.work? id = some w) (reply : Reply) :
    (act env s (.turn id reply)).held + (s.holds id).toNat =
      s.held + ((act env s (.turn id reply)).holds id).toNat := by
  obtain ⟨hlt, -⟩ := List.getElem?_eq_some_iff.1 (work?_eq_some.1 hw)
  rw [← holds_of_tasks (List.getElem?_eq_getElem hlt), ← holds_of_tasks (task_turn env reply hw), held, held,
    turn_of_some env reply hw, List.countP_append, holds_of_launched, Nat.add_zero]
  exact countP_set_toNat Task.holds hlt _

theorem held_act (h : ∀ id reply w, a = .turn id reply → s.work? id ≠ some w) : (act env s a).held = s.held := by
  cases a with
  | request r => simp [held, act, request, Task.holds, Work.write?]
  | launch root =>
    simp only [act]
    split
    · rfl
    · rw [held, launch, List.countP_append, holds_of_launched]
      rfl
  | turn id reply =>
    cases hw : s.work? id with
    | none => rw [turn_of_none env reply hw]
    | some w => exact absurd hw (h id reply w rfl)
  | change c => rfl

/-! ## The balance -/

theorem advances_balance {token : Token} {epoch : Epoch} {sh sh' : Shared} {v v' : EpochWrite}
    (h : v.Advances env token epoch sh reply sh' v') :
    sh'.store.begun + v.holds.toNat = sh.store.begun + v'.holds.toNat ∧
    sh'.store.commits = sh.store.commits ∧ sh'.store.cancellations = sh.store.cancellations := by
  have hstore : sh'.store = (v.granted sh.account).store := congrArg Account.store h.account
  have hholds : v'.holds = true := by
    cases v' with
    | beginning => exact absurd rfl h.begun
    | _ => rfl
  rw [hstore, hholds]
  cases v <;> exact ⟨rfl, rfl, rfl⟩

theorem closes_balance {epoch : Epoch} {v : EpochWrite} {a a' : Account} {interrupted : Bool}
    (h : v.Closes a interrupted reply a') (hv : s.write? id = some (epoch, v)) :
    a'.store.begun = a.store.begun ∧
    a'.store.commits + a'.store.cancellations + (refusals s (.turn id reply)).length =
      a.store.commits + a.store.cancellations + v.holds.toNat := by
  cases h with
  | unbegun => cases reply <;> simp [refusals, hv, Account.miss, EpochWrite.holds]
  | cancelled _ tx staged hs _ =>
    cases v with
    | beginning => cases hs
    | committing tx written => cases hs
    | _ => cases reply <;> simp [refusals, hv, Account.miss, Account.cancel, Store.cancel, EpochWrite.holds] <;> omega
  | committed tx written hr =>
    subst hr
    refine ⟨rfl, ?_⟩
    show a.store.commits + 1 + a.store.cancellations + 0 = a.store.commits + a.store.cancellations + 1
    omega
  | refused tx written cause hr =>
    subst hr
    simp [refusals, hv, Account.miss, EpochWrite.holds]

/-- What a turn of a task begins, ends, refuses and holds. -/
theorem turn_balance {w : Work} (hw : s.work? id = some w) (hk : w.kind ≠ .stage) (reply : Reply) :
    let s' := act env s (.turn id reply)
    s'.shared.store.begun + s.shared.store.commits + s.shared.store.cancellations + (s.holds id).toNat =
      s.shared.store.begun + s'.shared.store.commits + s'.shared.store.cancellations +
        (refusals s (.turn id reply)).length + (s'.holds id).toNat := by
  dsimp only
  -- A write that is open where none was is at its beginning and holds nothing yet.
  have hnothing : ∀ {sh token? may}, WentOn env sh token? may (act env s (.turn id reply)) id →
      (act env s (.turn id reply)).holds id = false ∧ (act env s (.turn id reply)).shared.store = sh.account.store := by
    intro sh token? may hon
    refine ⟨?_, hon.store⟩
    cases hv' : (act env s (.turn id reply)).write? id with
    | none => rw [holds, hv']; rfl
    | some ev =>
      obtain ⟨epoch', v'⟩ := ev
      rw [holds, hv', hon.fresh epoch' v' hv']
      rfl
  cases turned env hw hk reply with
  | advances token epoch v v' hv _ _ hadv hv' =>
    obtain ⟨hb, hc, hx⟩ := advances_balance env hadv
    have hr : refusals s (.turn id reply) = [] := by rw [hadv.granted]; rfl
    rw [holds, holds, hv, hv', hr, hc, hx]
    show _ + v.holds.toNat = _ + v'.holds.toNat
    rw [List.length_nil]
    omega
  | closes token epoch v sh hv _ _ hcl hon =>
    obtain ⟨hb, he⟩ := closes_balance hcl hv
    obtain ⟨hheld, hstore⟩ := hnothing hon
    rw [hheld, hstore, holds, hv]
    show _ + v.holds.toNat = _
    have hb' : sh.account.store.begun = s.shared.store.begun := hb
    have he' : sh.account.store.commits + sh.account.store.cancellations + (refusals s (.turn id reply)).length =
      s.shared.store.commits + s.shared.store.cancellations + v.holds.toNat := he
    rw [Bool.toNat_false]
    omega
  | closed hv hon =>
    obtain ⟨hheld, hstore⟩ := hnothing hon
    have hr : refusals s (.turn id reply) = [] := by
      cases reply with
      | granted => rfl
      | failed cause => rw [refusals, hv]
    rw [hheld, hstore, holds, hv, hr, Shared.account_missing]
    rfl

/-- Every transaction begun is committed, cancelled, refused in commit or held. -/
theorem balance_run (hs : s₀.Idle) (h : Only (fun k => k ≠ .stage) acts) :
    let s := run env s₀ acts
    s.shared.store.begun + s₀.shared.store.commits + s₀.shared.store.cancellations =
      s₀.shared.store.begun + s.shared.store.commits + s.shared.store.cancellations +
        (along env refusals s₀ acts).length + s.held := by
  induction acts using List.reverseRecOn with
  | nil =>
    have hnone : s₀.held = 0 := by rw [held, hs.noTask]; rfl
    simp only [run_nil, along, hnone, List.length_nil]
    omega
  | append_singleton acts a ih =>
    have hsum := ih h.of_snoc
    dsimp only at hsum ⊢
    rw [run_snoc, along_snoc, List.length_append]
    by_cases ha : ∃ id reply w, a = .turn id reply ∧ (run env s₀ acts).work? id = some w
    · obtain ⟨id, reply, w, rfl, hw⟩ := ha
      have hk : w.kind ≠ .stage := by simpa using kinds_run env (by decide) hs h.of_snoc hw
      have hturn := turn_balance env hw hk reply
      have hheld := held_turn env hw reply
      dsimp only at hturn
      omega
    · have hother : ∀ id reply w, a = .turn id reply → (run env s₀ acts).work? id ≠ some w :=
        fun id reply w he hw => ha ⟨id, reply, w, he, hw⟩
      have hstore : (act env (run env s₀ acts) a).shared.store = (run env s₀ acts).shared.store :=
        congrArg Account.store (act_account env hother)
      have hr : refusals (run env s₀ acts) a = [] := by
        cases a with
        | turn id reply =>
          have hnone : (run env s₀ acts).work? id = none :=
            Option.eq_none_iff_forall_ne_some.2 fun w => hother id reply w rfl
          cases reply with
          | granted => rfl
          | failed cause => rw [refusals, write?_of_none hnone]
        | _ => rfl
      rw [hstore, held_act env hother, hr, List.length_nil]
      omega

theorem held_of_closed (h : ∀ id, s.write? id = none) : s.held = 0 := by
  rw [held, List.countP_eq_zero]
  intro task htask
  obtain ⟨id, hlt, rfl⟩ := List.getElem_of_mem htask
  rw [holds_of_tasks (List.getElem?_eq_getElem hlt), holds, h id]
  exact Bool.false_ne_true

/-- What holds of the transactions after `acts`. -/
structure TxProtocol (s₀ : System) (acts : List Action) : Prop where
  /-- An open write has called in the order of the script. -/
  calls : ∀ id epoch v, (run env s₀ acts).write? id = some (epoch, v) → ∃ before since as,
    Invocation env s₀ acts id epoch v before since as ∧ callsBy env id (run env s₀ before) since <+: script env epoch as
  /-- In its turn it makes the next call if the last was granted, or it is over. -/
  turns : ∀ id epoch v, (run env s₀ acts).write? id = some (epoch, v) → ∀ reply,
    let s := run env s₀ acts
    let s' := run env s₀ (acts ++ [.turn id reply])
    (∃ token v', v.Advances env token epoch s.shared reply s'.shared v' ∧ s'.write? id = some (epoch, v')) ∨
    Disposed env s s' id reply v
  /-- So every transaction begun is committed, cancelled, refused in commit or held open. -/
  balance : Only (fun k => k ≠ .stage) acts →
    let s := run env s₀ acts
    s.shared.store.begun + s₀.shared.store.commits + s₀.shared.store.cancellations =
      s₀.shared.store.begun + s.shared.store.commits + s.shared.store.cancellations +
        (along env refusals s₀ acts).length + s.held
  none_held : (∀ id, (run env s₀ acts).write? id = none) → (run env s₀ acts).held = 0

/-- Every transaction is begun, staged and disposed of by the protocol, in any run. -/
theorem tx_protocol (hs : s₀.Idle) (acts : List Action) : TxProtocol env s₀ acts := by
  constructor
  · intro id epoch v hv
    obtain ⟨before, since, as, hinv⟩ := invocation_run env hs hv
    exact ⟨before, since, as, hinv, hinv.calls ▸ v.calls_prefix env⟩
  · intro id epoch v hv reply
    dsimp only
    rw [run_snoc]
    exact advanced_or_disposed env hv reply
  · exact balance_run env hs
  · exact held_of_closed

/-- Three writes: the commit of the first fails, the second is cancelled while it fetches, and
    the third fetches. -/
def threeWrites : List Action :=
  .request (.writeEpoch (.root 0) 0) :: List.replicate 4 (.turn 0 .granted) ++
    [.turn 0 (.failed (.reported ["disk full"]))] ++
  .request (.writeEpoch (.root 1) 0) :: List.replicate 2 (.turn 1 .granted) ++
    [.change (.cancel (.root 1)), .turn 1 .granted] ++
  .request (.writeEpoch (.root 0) 1) :: List.replicate 2 (.turn 2 .granted)

theorem tx_protocol_three_writes :
    let s₀ := opened [] (fun _ => []) []
    let s := run .plain s₀ threeWrites
    s.shared.store.begun = 3 ∧ s.shared.store.commits = 0 ∧ s.shared.store.cancellations = 1 ∧
    (along .plain refusals s₀ threeWrites).length = 1 ∧ s.held = 1 ∧
    (∃ before since as, callsBy .plain 2 (run .plain s₀ before) since = [.begin, .fetch 4] ∧
      [.begin, .fetch 4] <+: script .plain 1 as) := by
  dsimp only
  have hprotocol := tx_protocol .plain (opened_idle [] (fun _ => []) []) threeWrites
  have hbegun : (run .plain (opened [] (fun _ => []) []) threeWrites).shared.store.begun = 3 := by decide +kernel
  have hcommits : (run .plain (opened [] (fun _ => []) []) threeWrites).shared.store.commits = 0 := by decide +kernel
  have hcancelled : (run .plain (opened [] (fun _ => []) []) threeWrites).shared.store.cancellations = 1 := by
    decide +kernel
  have hrefused : (along .plain refusals (opened [] (fun _ => []) []) threeWrites).length = 1 := by decide +kernel
  have hbalance := hprotocol.balance (by decide)
  dsimp only at hbalance
  rw [hbegun, hcommits, hcancelled, hrefused] at hbalance
  refine ⟨hbegun, hcommits, hcancelled, hrefused, ?_, ?_⟩
  · change 3 + 0 + 0 = 0 + 0 + 1 + 1 + _ at hbalance
    omega
  · obtain ⟨before, since, as, hinv, hpre⟩ := hprotocol.calls 2 1 (.staging (.fetching .empty)) (by decide +kernel)
    have hcalls : callsBy .plain 2 (run .plain (opened [] (fun _ => []) []) before) since = [.begin, .fetch 4] :=
      hinv.calls
    exact ⟨before, since, as, hcalls, hcalls ▸ hpre⟩

end System

end CommitteeSync
