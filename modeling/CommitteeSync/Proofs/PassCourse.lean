/-
  CommitteeSync.Proofs.PassCourse — a pass as the writes of its epochs, one after another.

  A pass has its first turn and then the visits of its epochs in ascending order. An epoch
  that it got through is a leg: a write that ended well. The pass ends with the last leg of
  its range or with the first epoch that is no leg, because its write came to an error or
  because the token was found cancelled before it.

  Proved, turn by turn (`Pass.start_advances`, `Pass.resume_advances`): the visits of a pass
  come apart into legs and what belongs to the present epoch, each leg is one commit, and the
  report counts the legs.
-/

import CommitteeSync.Proofs.Replay
import CommitteeSync.Proofs.Visits

namespace CommitteeSync

open Turn

variable (env : Setup)

/-! ## Legs -/

/-- An epoch that a pass got through: what the chain served for it, and its visits. -/
structure Leg where
  epoch : Epoch
  as : List Assignment
  visits : List Visit

namespace Leg

/-- The write of the leg ended well. -/
def Done (token : Token) (l : Leg) : Prop := Course env token l.epoch l.as [] l.visits (.ok l.as.length)

def commit (l : Leg) : Epoch × Transaction :=
  (l.epoch, ⟨[(env.metadataKey, Record.encode ⟨l.epoch⟩)], l.as.map Committee.ofAssignment⟩)

/-- All the visits of a pass that got through `legs`, the last of them for the present epoch. -/
def path (first : Visit) (legs : List Leg) (now : List Visit) : List Visit := first :: legs.flatMap Leg.visits ++ now

theorem path_snoc (first : Visit) (legs : List Leg) (now : List Visit) (v : Visit) :
    path first legs now ++ [v] = path first legs (now ++ [v]) := by
  simp [path]

theorem path_leg (first : Visit) (legs : List Leg) (l : Leg) : path first (legs ++ [l]) [] = path first legs l.visits := by
  simp [path]

end Leg

/-- Epochs of a range that come before another one of it are its first ones. -/
theorem legs_initial {legs : List Epoch} {resume reach target : Epoch} (hle : resume ≤ reach) (hle' : reach ≤ target)
    (h : legs ++ [reach] = upTo resume reach) : legs <+: upTo resume target := by
  have hinitial : legs ++ [reach] <+: upTo resume target := by
    rw [h]
    exact upTo_initial hle hle'
  exact (List.prefix_append legs [reach]).trans hinitial

/-! ## How far a pass has got -/

namespace Pass

/-- A pass from `resume` to `target` that waits, with `visits` and `commits` behind it. -/
structure Advances (token : Token) (resume target : Epoch) (visits : List Visit) (commits : List (Epoch × Transaction))
    (first : Visit) (legs : List Leg) (as : List Assignment) (now : List Visit) (p : Pass) : Prop where
  visits : visits = Leg.path first legs now
  opening : first.call? = none
  commits : commits = legs.map (Leg.commit env)
  done : ∀ l ∈ legs, l.Done env token
  epochs : legs.map Leg.epoch ++ [p.epoch] = upTo resume p.epoch
  within : resume ≤ p.epoch ∧ p.epoch ≤ target
  report : p.report = ⟨resume, target, (legs.map Leg.epoch).getLast?, .ofNat legs.length, .completed⟩
  write : p.write.Underway env token p.epoch as [] now

/-- Why a pass went no further than `epoch`: the token was found cancelled in the turn before
    the epoch, or the write came to an error. -/
inductive Halts (token : Token) (epoch : Epoch) (before : List Visit) : List Visit → PassOutcome → Prop
  | cancelled (last : Visit) : before.getLast? = some last → last.found.isCancelled token →
      Halts token epoch before [] .cancelled
  | failed (as : List Assignment) (now : List Visit) (error : EpochError) :
      Course env token epoch as [] now (.error error) → Halts token epoch before now (outcomeOf error)

/-- How a pass from `resume` to `target` ends, with `visits` and `commits` behind it. -/
inductive Ends (token : Token) (resume target : Epoch) (visits : List Visit) (commits : List (Epoch × Transaction)) :
    Report → Prop
  | nothing (first : Visit) : target < resume → visits = [first] → first.call? = none → commits = [] →
      Ends token resume target visits commits (Report.empty resume target)
  | whole (first : Visit) (legs : List Leg) : resume ≤ target → visits = Leg.path first legs [] → first.call? = none →
      commits = legs.map (Leg.commit env) → (∀ l ∈ legs, l.Done env token) → legs.map Leg.epoch = upTo resume target →
      Ends token resume target visits commits ⟨resume, target, some target, .ofNat legs.length, .completed⟩
  | short (first : Visit) (legs : List Leg) (epoch : Epoch) (now : List Visit) (outcome : PassOutcome) :
      resume ≤ epoch → epoch ≤ target → visits = Leg.path first legs now → first.call? = none →
      commits = legs.map (Leg.commit env) → (∀ l ∈ legs, l.Done env token) →
      legs.map Leg.epoch ++ [epoch] = upTo resume epoch → Halts env token epoch (Leg.path first legs []) now outcome →
      Ends token resume target visits commits
        ⟨resume, target, (legs.map Leg.epoch).getLast?, .ofNat legs.length, outcome⟩

end Pass

/-! ## One turn -/

/-- A write commits in the turn in which it ends well, and in no other. -/
theorem EpochWrite.resume_commits (token : Token) (epoch : Epoch) (sh : Shared) (w : EpochWrite) (reply : Reply) :
    Yields (w.resume env token epoch sh reply) (fun _ _ => commitOf (some (epoch, w)) reply = none)
      (fun _ r => (∃ n tx, r = .ok n ∧ w = .committing tx n ∧ commitOf (some (epoch, w)) reply = some (epoch, tx)) ∨
        ∃ error, r = .error error ∧ commitOf (some (epoch, w)) reply = none) := by
  by_cases hw : ∃ tx written, w = .committing tx written
  · obtain ⟨tx, written, rfl⟩ := hw
    cases reply with
    | granted => exact Or.inl ⟨written, tx, rfl, rfl, rfl⟩
    | failed cause => exact Or.inr ⟨_, rfl, rfl⟩
  · have hnone : commitOf (some (epoch, w)) reply = none := by
      rw [← Option.not_isSome_iff_eq_none, Option.isSome_iff_exists]
      rintro ⟨⟨e, tx⟩, he⟩
      obtain ⟨-, written, hcommitting⟩ := commitOf_eq_some.1 he
      cases hcommitting
      exact hw ⟨tx, written, rfl⟩
    have hfails := resume_fails env token epoch sh w reply fun tx written he => hw ⟨tx, written, he⟩
    refine hfails.mono (fun _ _ _ => hnone) fun _ r hr => ?_
    cases r with
    | error error => exact Or.inr ⟨error, rfl, hnone⟩
    | ok n => exact absurd rfl (hr n)

/-- What the write of `epoch` came to: one more leg, which it committed, or an error. -/
inductive EpochWrite.ComesTo (token : Token) (epoch : Epoch) (as : List Assignment) (now : List Visit)
    (commits : List (Epoch × Transaction)) : EpochWrite.Result → Prop
  | leg : Leg.Done env token ⟨epoch, as, now⟩ → commits = [Leg.commit env ⟨epoch, as, now⟩] →
      ComesTo token epoch as now commits (.ok as.length)
  | failed (error : EpochError) : Course env token epoch as [] now (.error error) → commits = [] →
      ComesTo token epoch as now commits (.error error)

/-- In its turn a write goes on and commits nothing, or it comes to one of these. -/
theorem EpochWrite.resume_comesTo {token : Token} {epoch : Epoch} {as : List Assignment} {now : List Visit} {w : EpochWrite}
    (h : w.Underway env token epoch as [] now) (sh : Shared) (reply : Reply) :
    let now' := now ++ [w.visit env token epoch sh reply]
    let commits := (commitOf (some (epoch, w)) reply).toList
    ∃ as', Yields (w.resume env token epoch sh reply)
      (fun _ w' => w'.Underway env token epoch as' [] now' ∧ commits = [])
      (fun _ r => ComesTo env token epoch as' now' commits r) := by
  dsimp only
  obtain ⟨as', hwrite, hturn⟩ := resume_served env h sh reply
  refine ⟨as', (hturn.and (w.resume_commits env token epoch sh reply)).mono ?_ ?_⟩
  · rintro _ w' ⟨hunder, hnone⟩
    exact ⟨hunder, by rw [hnone, Option.toList_none]⟩
  · rintro _ r ⟨hcourse, ⟨n, tx, rfl, hw, hcommit⟩ | ⟨error, rfl, hnone⟩⟩
    · have hlength : n = as'.length := ((Course.ok_iff env hcourse n).1 rfl).2.2.2
      have htx : tx = ⟨[(env.metadataKey, Record.encode ⟨epoch⟩)], as'.map Committee.ofAssignment⟩ := by
        have hanswer := hwrite.answer
        rw [hw] at hanswer
        exact (hanswer.resolve_left nofun).1
      subst hlength htx
      exact .leg hcourse (by rw [hcommit]; rfl)
    · exact .failed error hcourse (by rw [hnone, Option.toList_none])

namespace Pass

variable {token : Token} {resume target : Epoch} {visits : List Visit} {commits : List (Epoch × Transaction)}
  {first : Visit} {legs : List Leg} {epoch : Epoch}

/-- At the next epoch the pass goes on, unless the token is cancelled by now. -/
theorem enter_advances {sh : Shared} {last : Visit} (first : Visit) (legs : List Leg)
    (hvisits : visits = Leg.path first legs []) (hopening : first.call? = none)
    (hcommits : commits = legs.map (Leg.commit env)) (hdone : ∀ l ∈ legs, l.Done env token)
    (hepochs : legs.map Leg.epoch ++ [epoch] = upTo resume epoch) (hwithin : resume ≤ epoch ∧ epoch ≤ target)
    (hlast : visits.getLast? = some last) (hlook : last.found.isCancelled token = sh.isCancelled token) :
    Yields (enter token ⟨resume, target, (legs.map Leg.epoch).getLast?, .ofNat legs.length, .completed⟩ epoch sh)
      (fun _ p => ∃ first legs as now, p.Advances env token resume target visits commits first legs as now)
      (fun _ r => Ends env token resume target visits commits r) := by
  unfold enter
  cases hc : sh.isCancelled token with
  | true =>
    rw [if_pos rfl]
    rw [hvisits] at hlast
    exact .short first legs epoch [] .cancelled hwithin.1 hwithin.2 hvisits hopening hcommits hdone hepochs
      (.cancelled last hlast (hlook.trans hc))
  | false =>
    rw [if_neg Bool.false_ne_true]
    refine ⟨first, legs, [], [], hvisits, hopening, hcommits, hdone, hepochs, hwithin, rfl, ?_⟩
    exact EpochWrite.underway_beginning env rfl (fun _ hm => absurd hm List.not_mem_nil)
      fun _ hm => absurd hm List.not_mem_nil

/-- The first turn finds that there is nothing to do, or enters the first epoch. -/
theorem start_advances (token : Token) (resume target : Epoch) (sh : Shared) (reply : Reply) :
    Yields (start token resume target sh)
      (fun _ p => ∃ first legs as now, p.Advances env token resume target [⟨none, sh, reply⟩] [] first legs as now)
      (fun _ r => Ends env token resume target [⟨none, sh, reply⟩] [] r) := by
  unfold start
  split
  · rename_i hlt
    exact .nothing ⟨none, sh, reply⟩ hlt rfl rfl rfl
  · rename_i hle
    exact enter_advances env ⟨none, sh, reply⟩ [] rfl rfl rfl (fun _ hm => absurd hm List.not_mem_nil) (upTo_self resume).symm
      ⟨UInt64.le_refl _, UInt64.not_lt.1 hle⟩ rfl rfl

/-- Every later turn is a visit of the present epoch. -/
theorem resume_advances {as : List Assignment} {now : List Visit} {p : Pass}
    (h : p.Advances env token resume target visits commits first legs as now) (sh : Shared) (reply : Reply) :
    let visits' := visits ++ [p.write.visit env token p.epoch sh reply]
    let commits' := commits ++ (commitOf (some (p.epoch, p.write)) reply).toList
    Yields (p.resume env token sh reply)
      (fun _ p' => ∃ first legs as now, p'.Advances env token resume target visits' commits' first legs as now)
      (fun _ r => Ends env token resume target visits' commits' r) := by
  dsimp only
  obtain ⟨as', hturn⟩ := EpochWrite.resume_comesTo env h.write sh reply
  have htokens := congrArg Surroundings.tokens (p.write.resume_writes env token p.epoch sh reply).surroundings
  have hvisits : visits ++ [p.write.visit env token p.epoch sh reply] =
      Leg.path first legs (now ++ [p.write.visit env token p.epoch sh reply]) := by
    rw [h.visits, Leg.path_snoc]
  refine (yields_andThen ..).2 ?_
  rcases hr : p.write.resume env token p.epoch sh reply with ⟨sh', w' | r⟩
  · rw [hr] at hturn
    obtain ⟨hunder, hnone⟩ := hturn
    rw [hnone, List.append_nil]
    exact ⟨first, legs, as', _, hvisits, h.opening, h.commits, h.done, h.epochs, h.within, h.report, hunder⟩
  · rw [hr] at hturn htokens
    cases hturn with
    | leg hleg hcommit =>
      -- The epoch is the next leg.
      rw [hcommit]
      show Yields (settle token p.report p.epoch sh' (.ok as'.length)) _ _
      rw [h.report, settle]
      let leg : Leg := ⟨p.epoch, as', now ++ [p.write.visit env token p.epoch sh reply]⟩
      have hpath : visits ++ [p.write.visit env token p.epoch sh reply] = Leg.path first (legs ++ [leg]) [] := by
        rw [hvisits, Leg.path_leg]
      have hall : commits ++ [leg.commit env] = (legs ++ [leg]).map (Leg.commit env) := by
        rw [List.map_append, ← h.commits]
        rfl
      have hdone : ∀ l ∈ legs ++ [leg], l.Done env token :=
        List.forall_mem_append.2 ⟨h.done, List.forall_mem_singleton.2 hleg⟩
      have hepochs : (legs ++ [leg]).map Leg.epoch = upTo resume p.epoch := by
        rw [List.map_append]
        exact h.epochs
      have hlast : ((legs ++ [leg]).map Leg.epoch).getLast? = some p.epoch := by
        rw [List.map_append]
        exact List.getLast?_concat
      have hcount : UInt64.ofNat (legs ++ [leg]).length = UInt64.ofNat legs.length + 1 := by
        rw [List.length_append, UInt64.ofNat_add]
        rfl
      split
      · rename_i htarget
        have htarget : p.epoch = target := htarget
        show Ends env token resume target _ _ ⟨resume, target, some p.epoch, .ofNat legs.length + 1, .completed⟩
        rw [htarget] at hepochs
        rw [congrArg some htarget, ← hcount]
        exact .whole first (legs ++ [leg]) (UInt64.le_trans h.within.1 h.within.2) hpath h.opening hall hdone hepochs
      · rename_i htarget
        have hlt := UInt64.lt_of_le_of_ne h.within.2 htarget
        have hne := ne_lastWord_of_lt hlt
        have hsucc := toNat_succ hne
        have hle := UInt64.le_iff_toNat_le.1 h.within.1
        rw [UInt64.lt_iff_toNat_lt] at hlt
        have hnext : resume ≤ p.epoch + 1 ∧ p.epoch + 1 ≤ target := by
          rw [UInt64.le_iff_toNat_le, UInt64.le_iff_toNat_le, hsucc]
          omega
        have hlook : sh.isCancelled token = sh'.isCancelled token :=
          congrArg (fun tokens : Tokens => tokens.isCancelled token) htokens.symm
        have henter := enter_advances env first (legs ++ [leg]) hpath h.opening hall hdone
          (by rw [hepochs, upTo_snoc h.within.1 hne]) hnext List.getLast?_concat hlook
        rw [hlast, hcount] at henter
        exact henter
    | failed error hcourse hnone =>
      rw [hnone, List.append_nil]
      show Ends env token resume target _ _ { p.report with outcome := outcomeOf error }
      rw [h.report]
      exact .short first legs p.epoch _ _ h.within.1 h.within.2 hvisits h.opening h.commits h.done h.epochs
        (.failed as' _ error hcourse)

end Pass

end CommitteeSync
