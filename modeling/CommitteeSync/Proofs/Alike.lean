/-
  CommitteeSync.Proofs.Alike — what shows of a write of an epoch, and what it depends on.

  What the write of an epoch reads of the shared state is what the chain serves and whether
  its token is cancelled. Of all else it notes, counts and stores things. So a view of the
  state that shows the chain and the tokens, and in which notes, counts and commits show as
  what they are (`Shared.Sees`), shows all that a write depends on.

  Proved:
  (1) From two states that look the same in such a view, a turn of a write or of a pass
      leaves states that look the same and comes to the same (`EpochWrite.resume_alike`,
      `Pass.start_alike`, `Pass.resume_alike`).
  (2) In a view that shows none of those, nothing shows of a write
      (`EpochWrite.resume_overlooked`).
-/

import CommitteeSync.Proofs.Turns

namespace CommitteeSync

open Turn

variable (env : Setup)

/-- A view that shows the chain and the tokens, and in which all that a write does is done to
    what is seen. -/
structure Shared.Sees {α : Type} (view : Shared → α) : Prop where
  chain : ∀ {sh sh'}, view sh' = view sh → sh'.chain = sh.chain
  tokens : ∀ {sh sh'}, view sh' = view sh → sh'.tokens = sh.tokens
  make : ∀ {sh sh'}, view sh' = view sh → ∀ call, view (sh'.make call) = view (sh.make call)
  log : ∀ {sh sh'}, view sh' = view sh → ∀ event, view (sh'.log event) = view (sh.log event)
  count : ∀ {sh sh'}, view sh' = view sh → ∀ step, view (sh'.count step) = view (sh.count step)
  beginTx : ∀ {sh sh'}, view sh' = view sh → view sh'.beginTx = view sh.beginTx
  commitTx : ∀ {sh sh'}, view sh' = view sh → ∀ tx, view (sh'.commitTx tx) = view (sh.commitTx tx)
  cancelTx : ∀ {sh sh'}, view sh' = view sh → ∀ tx, view (sh'.cancelTx tx) = view (sh.cancelTx tx)

/-- The turns left states that look the same, and came to the same. -/
structure Turn.Alike {α σ ρ : Type} (view : Shared → α) (t t' : Shared × Turn σ ρ) : Prop where
  view : view t'.1 = view t.1
  turn : t'.2 = t.2

theorem Turn.Alike.andThen {α σ ρ σ' ρ' : Type} {view : Shared → α} {t t' : Shared × Turn σ ρ} (h : Alike view t t')
    (wrap : σ → σ') {next : Shared → ρ → Shared × Turn σ' ρ'}
    (hn : ∀ (sh sh' : Shared) r, view sh' = view sh → Alike view (next sh r) (next sh' r)) :
    Alike view (Turn.andThen t wrap next) (Turn.andThen t' wrap next) := by
  obtain ⟨sh, s | r⟩ := t
  · obtain ⟨sh', turn⟩ := t'
    cases h.turn
    exact ⟨h.view, rfl⟩
  · obtain ⟨sh', turn⟩ := t'
    cases h.turn
    exact hn sh sh' r h.view

section Turns

variable {α : Type} {view : Shared → α} (hv : Shared.Sees view) {sh sh' : Shared}

theorem Shared.Sees.isCancelled (hv : Shared.Sees view) (h : view sh' = view sh) (t : Token) :
    sh'.isCancelled t = sh.isCancelled t := by
  rw [Shared.isCancelled, hv.tokens h]
  rfl

include hv

/-! ## The write of one epoch -/

theorem Staging.advance_alike (h : view sh' = view sh) (epoch : Epoch) (tx : Transaction) (written : Nat)
    (as : List Assignment) : Alike view (advance env epoch tx written sh as) (advance env epoch tx written sh' as) := by
  cases as with
  | nil => exact ⟨h, rfl⟩
  | cons a rest =>
    simp only [advance]
    split
    · exact ⟨hv.make h _, rfl⟩
    · exact ⟨h, rfl⟩

theorem Staging.resume_alike (h : view sh' = view sh) (epoch : Epoch) (s : Staging) (reply : Reply) :
    Alike view (s.resume env epoch sh reply) (s.resume env epoch sh' reply) := by
  cases s with
  | fetching tx =>
    cases reply with
    | granted =>
      simp only [resume, hv.chain h]
      exact advance_alike env hv h epoch tx 0 _
    | failed cause => exact ⟨h, rfl⟩
  | putting tx written next rest =>
    cases reply with
    | granted => exact advance_alike env hv h epoch _ _ rest
    | failed cause => exact ⟨h, rfl⟩

namespace EpochWrite

theorem fail_alike (h : view sh' = view sh) (error : EpochError) : Alike view (fail sh error) (fail sh' error) := by
  simp only [fail]
  split
  · exact ⟨h, rfl⟩
  · exact ⟨hv.count h .epochFailure, rfl⟩

theorem abort_alike (h : view sh' = view sh) (tx : Transaction) (error : EpochError) :
    Alike view (abort sh tx error) (abort sh' tx error) := fail_alike hv (hv.cancelTx h tx) error

theorem start_alike (h : view sh' = view sh) (token : Token) (epoch : Epoch) :
    Alike view (start token epoch sh) (start token epoch sh') := by
  unfold start
  rw [hv.isCancelled h]
  split
  · exact fail_alike hv h _
  · exact ⟨hv.make h _, rfl⟩

theorem record_alike (h : view sh' = view sh) (epoch : Epoch) (r : Staging.Result) :
    Alike view (record epoch sh r) (record epoch sh' r) := by
  obtain ⟨tx, cause | written⟩ := r
  · exact abort_alike hv h tx _
  · exact ⟨hv.make h _, rfl⟩

theorem finish_alike (h : view sh' = view sh) (epoch : Epoch) (tx : Transaction) (written : Nat) :
    Alike view (finish epoch sh tx written) (finish epoch sh' tx written) :=
  ⟨hv.log (hv.count (hv.commitTx h tx) (.epochProcessed epoch)) _, rfl⟩

theorem resume_alike (h : view sh' = view sh) (token : Token) (epoch : Epoch) (w : EpochWrite) (reply : Reply) :
    Alike view (w.resume env token epoch sh reply) (w.resume env token epoch sh' reply) := by
  have hc := hv.isCancelled h token
  cases w with
  | beginning =>
    simp only [resume, hc]
    split
    · exact fail_alike hv h _
    · cases reply with
      | granted => exact ⟨hv.make (hv.beginTx h) _, rfl⟩
      | failed cause => exact fail_alike hv h _
  | staging s =>
    simp only [resume, hc]
    split
    · exact abort_alike hv h _ _
    · exact (Staging.resume_alike env hv h epoch s reply).andThen _ fun _ _ r h => record_alike hv h epoch r
  | recording tx written =>
    simp only [resume, hc]
    split
    · exact abort_alike hv h _ _
    · cases reply with
      | granted => exact ⟨hv.make h _, rfl⟩
      | failed cause => exact abort_alike hv h _ _
  | committing tx written =>
    cases reply with
    | granted => exact finish_alike hv h epoch tx written
    | failed cause => exact fail_alike hv h _

end EpochWrite

/-! ## A pass -/

namespace Pass

theorem enter_alike (h : view sh' = view sh) (token : Token) (report : Report) (epoch : Epoch) :
    Alike view (enter token report epoch sh) (enter token report epoch sh') := by
  unfold enter
  rw [hv.isCancelled h]
  split
  · exact ⟨hv.log h _, rfl⟩
  · exact ⟨hv.make h _, rfl⟩

theorem settle_alike (h : view sh' = view sh) (token : Token) (report : Report) (epoch : Epoch) (r : EpochWrite.Result) :
    Alike view (settle token report epoch sh r) (settle token report epoch sh' r) := by
  cases r with
  | error error => exact ⟨hv.log h _, rfl⟩
  | ok _ =>
    simp only [settle]
    split
    · exact ⟨hv.log h _, rfl⟩
    · exact enter_alike hv h token _ _

theorem start_alike (h : view sh' = view sh) (token : Token) (resume target : Epoch) :
    Alike view (start token resume target sh) (start token resume target sh') := by
  unfold start
  split
  · exact ⟨hv.log h _, rfl⟩
  · exact enter_alike hv (hv.log (hv.count h .catchupRun) _) token _ _

theorem resume_alike (h : view sh' = view sh) (token : Token) (p : Pass) (reply : Reply) :
    Alike view (p.resume env token sh reply) (p.resume env token sh' reply) :=
  (EpochWrite.resume_alike env hv h token p.epoch p.write reply).andThen _ fun _ _ r h =>
    settle_alike hv h token p.report p.epoch r

end Pass

end Turns

/-! ## Views in which a write does not show -/

/-- Nothing that a write does shows in the view. -/
structure Shared.Overlooks {α : Type} (view : Shared → α) : Prop where
  make : ∀ sh call, view (sh.make call) = view sh
  count : ∀ sh, view (sh.count .epochFailure) = view sh
  beginTx : ∀ sh, view sh.beginTx = view sh
  cancelTx : ∀ sh tx, view (sh.cancelTx tx) = view sh
  commitTx : ∀ sh tx epoch written,
    view (((sh.commitTx tx).count (.epochProcessed epoch)).log (.epochCommitted epoch written)) = view sh

section Overlooked

variable {α : Type} {view : Shared → α} (hv : Shared.Overlooks view)

include hv

theorem Staging.advance_overlooked (epoch : Epoch) (tx : Transaction) (written : Nat) (sh : Shared) (as : List Assignment) :
    view (advance env epoch tx written sh as).1 = view sh := by
  cases as with
  | nil => rfl
  | cons a rest =>
    simp only [advance]
    split
    · exact hv.make sh _
    · rfl

theorem Staging.resume_overlooked (epoch : Epoch) (sh : Shared) (s : Staging) (reply : Reply) :
    view (s.resume env epoch sh reply).1 = view sh := by
  cases s <;> cases reply
  · exact advance_overlooked env hv epoch _ _ sh _
  · rfl
  · exact advance_overlooked env hv epoch _ _ sh _
  · rfl

namespace EpochWrite

theorem fail_overlooked (sh : Shared) (error : EpochError) : view (fail sh error).1 = view sh := by
  simp only [fail]
  split
  · rfl
  · exact hv.count sh

theorem abort_overlooked (sh : Shared) (tx : Transaction) (error : EpochError) : view (abort sh tx error).1 = view sh :=
  (fail_overlooked hv _ error).trans (hv.cancelTx sh tx)

theorem resume_overlooked (token : Token) (epoch : Epoch) (sh : Shared) (w : EpochWrite) (reply : Reply) :
    view (w.resume env token epoch sh reply).1 = view sh := by
  cases w with
  | beginning =>
    simp only [resume]
    split
    · exact fail_overlooked hv sh _
    · cases reply with
      | granted => exact (hv.make _ _).trans (hv.beginTx sh)
      | failed cause => exact fail_overlooked hv sh _
  | staging s =>
    simp only [resume]
    split
    · exact abort_overlooked hv sh _ _
    · rw [andThen_view view _ _ fun sh r => ?_]
      · exact Staging.resume_overlooked env hv epoch sh s reply
      · obtain ⟨tx, cause | written⟩ := r
        · exact abort_overlooked hv sh tx _
        · exact hv.make sh _
  | recording tx written =>
    simp only [resume]
    split
    · exact abort_overlooked hv sh tx _
    · cases reply with
      | granted => exact hv.make sh _
      | failed cause => exact abort_overlooked hv sh tx _
  | committing tx written =>
    cases reply with
    | granted => exact hv.commitTx sh tx epoch written
    | failed cause => exact fail_overlooked hv sh _

end EpochWrite

end Overlooked

end CommitteeSync
