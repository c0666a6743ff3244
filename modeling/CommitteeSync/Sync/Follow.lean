/-
  CommitteeSync.Sync.Follow — catching up with a head that moves.

  The clock is read for a target and a pass goes up to it. When a pass is complete the clock
  is read again; while the head is ahead of the last target another pass goes on after it,
  never from below the first resume point. The reports of the passes add up to one report.

  A pass may end in the turn that started it (an empty range, a cancelled token). Targets
  strictly increase, so there are finitely many such passes in a turn.
-/

import CommitteeSync.Sync.Pass

namespace CommitteeSync

structure Follow where
  /-- The passes that ended. -/
  total : Report
  pass : Pass
  deriving DecidableEq, Repr

namespace Follow

def waitsFor (env : Setup) (token : Token) (f : Follow) : Wait := f.pass.waitsFor env token

/-- After a pass: done, unless it is complete and the head has moved on. -/
def lookAgain (token : Token) (total : Report) (sh : Shared) : Shared × Turn Follow Report :=
  if total.isCompleted then
    if _ahead : total.target < sh.readClock.2 then
      match Pass.start token (max total.resume (nextEpoch total.target)) sh.readClock.2 sh.readClock.1 with
      | (after, .waits pass) => (after, .waits ⟨total, pass⟩)
      | (after, .ends report) => lookAgain token (total.extend sh.readClock.2 report) after
    else (sh.readClock.1, .ends total)
  else (sh, .ends total)
termination_by lastWord.toNat - total.target.toNat
decreasing_by
  have low : total.target.toNat < sh.readClock.2.toNat := UInt64.lt_iff_toNat_lt.mp _ahead
  have high : sh.readClock.2.toNat ≤ lastWord.toNat := Nat.le_of_lt_succ (UInt64.toNat_lt _)
  simp only [Report.extend]
  omega

/-- Starts from `resume` towards the present epoch. -/
def start (token : Token) (resume : Epoch) (sh : Shared) : Shared × Turn Follow Report :=
  let total := Report.empty resume sh.readClock.2
  match Pass.start token resume sh.readClock.2 sh.readClock.1 with
  | (after, .waits pass) => (after, .waits ⟨total, pass⟩)
  | (after, .ends report) => lookAgain token (total.extend sh.readClock.2 report) after

def resume (env : Setup) (token : Token) (sh : Shared) (f : Follow) (reply : Reply) : Shared × Turn Follow Report :=
  Turn.andThen (f.pass.resume env token sh reply) (fun pass => { f with pass })
    (fun after report => lookAgain token (f.total.extend f.pass.report.target report) after)

end Follow

end CommitteeSync
