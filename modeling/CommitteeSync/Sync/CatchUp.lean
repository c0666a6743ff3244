/-
  CommitteeSync.Sync.CatchUp — guarded passes on request.

  Both requests for a pass need the guard and are denied without it. `CatchUp` reads the
  record first and follows the head from after it; a range is given outright.
-/

import CommitteeSync.Sync.Follow
import CommitteeSync.Sync.HeadUpdate

namespace CommitteeSync

/-! ## Catching up with the head -/

inductive CatchUp where
  /-- Waits for the record. -/
  | reading
  | following (f : Follow)
  deriving DecidableEq, Repr

namespace CatchUp

/-- What went wrong, or the report of an admitted pass. -/
abbrev Result := Except Cause (Option Report)

def waitsFor (env : Setup) (token : Token) : CatchUp → Wait
  | .reading => .reply (.metadata env.metadataKey) none
  | .following f => f.waitsFor env token

def start (env : Setup) (sh : Shared) : Shared × Turn CatchUp Result := (sh.askRecord env, .waits .reading)

/-- After the pass: the guard is released. -/
def finish (sh : Shared) (report : Report) : Shared × Turn CatchUp Result := (sh.exit .service, .ends (.ok (some report)))

/-- Once the record is known. -/
def follow (token : Token) (sh : Shared) : Except Cause Record → Shared × Turn CatchUp Result
  | .error cause => (sh, .ends (.error cause))
  | .ok record =>
    match sh.enter .service (.passDenied .manual) with
    | (sh, false) => (sh, .ends (.ok none))
    | (sh, true) => Turn.andThen (Follow.start token (record.resumePoint none) sh) .following finish

def resume (env : Setup) (token : Token) (sh : Shared) (c : CatchUp) (reply : Reply) : Shared × Turn CatchUp Result :=
  match c with
  | .reading => follow token sh (sh.readRecord env reply)
  | .following f => Turn.andThen (f.resume env token sh reply) .following finish

end CatchUp

/-! ## One range -/

/-- A guarded pass over one range. -/
structure RangePass where
  pass : Pass
  deriving DecidableEq, Repr

namespace RangePass

/-- The report of an admitted pass. -/
abbrev Result := Option Report

/-- After the pass: the guard is released. -/
def finish (sh : Shared) (report : Report) : Shared × Turn RangePass Result := (sh.exit .service, .ends (some report))

def start (token : Token) (resume target : Epoch) (sh : Shared) : Shared × Turn RangePass Result :=
  match sh.enter .service (.passDenied .range) with
  | (sh, false) => (sh, .ends none)
  | (sh, true) => Turn.andThen (Pass.start token resume target sh) RangePass.mk finish

def resume (env : Setup) (token : Token) (sh : Shared) (r : RangePass) (reply : Reply) :
    Shared × Turn RangePass Result :=
  Turn.andThen (r.pass.resume env token sh reply) RangePass.mk finish

end RangePass

end CommitteeSync
