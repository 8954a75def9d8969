import Mathlib.Data.Prod.Lex
import ProxmoxFuse.Decoding

/-!
# Attributes and their times

Times cross the crate twice: `FuseAttr::from_stat` writes the times of a `stat` to
the wire, and `duration_from_c` hands the times of a SETATTR to the consumer. Both
clamp seconds and nanoseconds on their own. The accessors of a `Setattr` decide
from the mask of the message which of its fields they show.
-/
namespace ProxmoxFuse

/-! ### Clamped timestamps -/

/-- A point in time as a `timespec` gives it: nanoseconds count forward from the second. -/
structure Timestamp where
  secs : Int64
  nsecs : Int64
  forward : 0 ≤ nsecs.toInt
  subsecond : nsecs.toInt < 1000000000

namespace Timestamp

def point (t : Timestamp) : ℤ ×ₗ ℤ := toLex (t.secs.toInt, t.nsecs.toInt)

/-- Not before the epoch, or a whole number of seconds. -/
def Representable (t : Timestamp) : Prop := 0 ≤ t.secs.toInt ∨ t.nsecs.toInt = 0

end Timestamp

/-- Seconds and nanoseconds on the wire and in a `Duration`. -/
abbrev WireTime := UInt64 × UInt32

def wirePoint (w : WireTime) : ℕ ×ₗ ℕ := toLex (w.1.toNat, w.2.toNat)

def Duration.wire (d : Duration) : WireTime := (d.secs, d.nanos)

/-- The three times `from_stat` converts. -/
inductive TimeField where
  | atime
  | mtime
  | ctime

namespace TimeField

def ofStat : TimeField → Stat → Int64 × Int64
  | .atime, s => (s.stAtime, s.stAtimeNsec)
  | .mtime, s => (s.stMtime, s.stMtimeNsec)
  | .ctime, s => (s.stCtime, s.stCtimeNsec)

def ofAttr : TimeField → FuseAttr → WireTime
  | .atime, a => (a.atime, a.atimensec)
  | .mtime, a => (a.mtime, a.mtimensec)
  | .ctime, a => (a.ctime, a.ctimensec)

end TimeField

/-- Times from the epoch on are kept and earlier ones become the epoch. -/
structure Clamps (t : Timestamp) (out : WireTime) : Prop where
  kept : 0 ≤ t.secs.toInt → (out.1.toNat : ℤ) = t.secs.toInt ∧ (out.2.toNat : ℤ) = t.nsecs.toInt
  epoch : t.secs.toInt < 0 → out = (0, 0)

/-- Both conversions clamp a pair of timestamps, keep their order, and agree. -/
structure ClampedAlike (f : TimeField) (t₁ t₂ : Timestamp) (s₁ s₂ : Stat) : Prop where
  attr : Clamps t₁ (f.ofAttr (.fromStat s₁)) ∧ Clamps t₂ (f.ofAttr (.fromStat s₂))
  duration : Clamps t₁ (durationFromC t₁.secs t₁.nsecs).wire ∧
    Clamps t₂ (durationFromC t₂.secs t₂.nsecs).wire
  attrOrder : t₁.point ≤ t₂.point →
    wirePoint (f.ofAttr (.fromStat s₁)) ≤ wirePoint (f.ofAttr (.fromStat s₂))
  durationOrder : t₁.point ≤ t₂.point →
    wirePoint (durationFromC t₁.secs t₁.nsecs).wire ≤
      wirePoint (durationFromC t₂.secs t₂.nsecs).wire
  agree : f.ofAttr (.fromStat s₁) = (durationFromC t₁.secs t₁.nsecs).wire ∧
    f.ofAttr (.fromStat s₂) = (durationFromC t₂.secs t₂.nsecs).wire

/-- Each field of a clamped time on its own. -/
theorem durationFromC_wire (t : Timestamp) :
    (durationFromC t.secs t.nsecs).secs.toNat = t.secs.toInt.toNat ∧
      (durationFromC t.secs t.nsecs).nanos.toNat = t.nsecs.toInt.toNat := by
  have nanos := clamp_nanos t.nsecs
  have lower := t.forward
  have upper := t.subsecond
  refine ⟨SignedWords.toNat_max_zero t.secs, ?_⟩
  change (SignedWords.clamp t.nsecs 0 999999999).toUInt64.toUInt32.toNat = _
  rw [nanos]
  omega

/-- On valid nanoseconds the bound that only one of the conversions checks is no bound. -/
theorem fromStat_wire (f : TimeField) {t : Timestamp} {s : Stat}
    (same : f.ofStat s = (t.secs, t.nsecs)) :
    f.ofAttr (.fromStat s) = (durationFromC t.secs t.nsecs).wire := by
  have nanos : (max t.nsecs 0).toUInt64.toUInt32 = (durationFromC t.secs t.nsecs).nanos := by
    have value : (max t.nsecs 0).toInt = max t.nsecs.toInt 0 := SignedWords.toInt_max t.nsecs 0
    have lower := t.forward
    have upper := t.subsecond
    apply UInt32.toNat_inj.mp
    rw [(durationFromC_wire t).2, SignedWords.toNat_narrow (by omega) (by omega)]
    omega
  have fields : f.ofAttr (.fromStat s) =
      ((max (f.ofStat s).1 0).toUInt64, (max (f.ofStat s).2 0).toUInt64.toUInt32) := by
    cases f <;> rfl
  rw [fields, same, nanos]
  rfl

theorem clamps_duration_iff (t : Timestamp) :
    Clamps t (durationFromC t.secs t.nsecs).wire ↔ t.Representable := by
  obtain ⟨secs, nanos⟩ := durationFromC_wire t
  have lower := t.forward
  constructor
  · intro clamps
    by_cases early : t.secs.toInt < 0
    · right
      have zero := congrArg (fun w => w.2.toNat) (clamps.epoch early)
      have value : t.nsecs.toInt.toNat = 0 := nanos.symm.trans zero
      omega
    · left
      omega
  · intro representable
    refine ⟨fun late => ?_, fun early => ?_⟩
    · simp only [Duration.wire, secs, nanos]
      omega
    · have whole : t.nsecs.toInt = 0 := representable.resolve_left (by omega)
      refine Prod.ext (UInt64.toNat_inj.mp ?_) (UInt32.toNat_inj.mp ?_)
      · simp only [Duration.wire, secs]
        exact Int.toNat_of_nonpos (by omega)
      · simp only [Duration.wire, nanos, whole]
        rfl

/-- Clamping keeps the order of representable times. -/
theorem durationFromC_mono {t₁ t₂ : Timestamp} (first : t₁.Representable)
    (le : t₁.point ≤ t₂.point) :
    wirePoint (durationFromC t₁.secs t₁.nsecs).wire ≤
      wirePoint (durationFromC t₂.secs t₂.nsecs).wire := by
  obtain ⟨secs₁, nanos₁⟩ := durationFromC_wire t₁
  obtain ⟨secs₂, nanos₂⟩ := durationFromC_wire t₂
  have lower := t₁.forward
  simp only [wirePoint, Duration.wire, secs₁, nanos₁, secs₂, nanos₂, Prod.Lex.toLex_le_toLex]
  simp only [Timestamp.point, Prod.Lex.toLex_le_toLex] at le
  rcases first with late | whole <;> omega

/-- Both conversions clamp, keep the order and agree on a pair of timestamps exactly if
neither of them lies before the epoch with a fraction of a second. -/
theorem clamped_alike_iff (t₁ t₂ : Timestamp) :
    (∀ f s₁ s₂, TimeField.ofStat f s₁ = (t₁.secs, t₁.nsecs) →
      TimeField.ofStat f s₂ = (t₂.secs, t₂.nsecs) →
      ClampedAlike f t₁ t₂ s₁ s₂) ↔ t₁.Representable ∧ t₂.Representable := by
  constructor
  · intro alike
    have atimes := (alike .atime { Stat.zeroed with stAtime := t₁.secs, stAtimeNsec := t₁.nsecs }
      { Stat.zeroed with stAtime := t₂.secs, stAtimeNsec := t₂.nsecs } rfl rfl).duration
    exact ⟨(clamps_duration_iff t₁).mp atimes.1, (clamps_duration_iff t₂).mp atimes.2⟩
  · rintro ⟨first, second⟩ f s₁ s₂ same₁ same₂
    have agree₁ := fromStat_wire f same₁
    have agree₂ := fromStat_wire f same₂
    have clamps₁ := (clamps_duration_iff t₁).mpr first
    have clamps₂ := (clamps_duration_iff t₂).mpr second
    refine ⟨?_, ⟨clamps₁, clamps₂⟩, ?_, durationFromC_mono first, ⟨agree₁, agree₂⟩⟩
    · rw [agree₁, agree₂]
      exact ⟨clamps₁, clamps₂⟩
    · rw [agree₁, agree₂]
      exact durationFromC_mono first

/-- Half a second before the epoch, and the epoch. -/
def beforeEpoch : Timestamp := ⟨-1, 500000000, by decide, by decide⟩

def epoch : Timestamp := ⟨0, 0, by decide, by decide⟩

/-- Half a second before the epoch becomes half a second after it, and so overtakes the epoch. -/
theorem beforeEpoch_overtakes :
    beforeEpoch.point ≤ epoch.point ∧
      (FuseAttr.fromStat { Stat.zeroed with stAtime := -1, stAtimeNsec := 500000000 }).atime = 0 ∧
      (FuseAttr.fromStat { Stat.zeroed with stAtime := -1, stAtimeNsec := 500000000 }).atimensec =
        500000000 ∧
      (durationFromC (-1) 500000000).wire = (0, 500000000) ∧
      ¬ wirePoint (durationFromC beforeEpoch.secs beforeEpoch.nsecs).wire ≤
        wirePoint (durationFromC epoch.secs epoch.nsecs).wire ∧
      ¬ Clamps beforeEpoch (durationFromC beforeEpoch.secs beforeEpoch.nsecs).wire := by
  refine ⟨by decide, by decide, by decide, by decide, by decide, ?_⟩
  intro clamps
  have zero := clamps.epoch (by decide)
  exact absurd zero (by decide)

/-! ### What a SETATTR asks for -/

/-- Whether a bit of the mask is set. -/
def KernelSetattr.asks (s : KernelSetattr) (bit : Nat) : Bool := s.valid.toNat.testBit bit

/-- A time that the wire format and a `Duration` both hold is handed on as it is. -/
def Duration.Carries (t : Duration) (secs : UInt64) (nsecs : UInt32) : Prop :=
  secs.toNat < 2 ^ 63 → nsecs.toNat < 10 ^ 9 → t.secs = secs ∧ t.nanos = nsecs

/-- "Now" whenever its bit is set, else the given time if there is one. -/
structure TellsTime (told : Option SetTime) (given now : Bool) (secs : UInt64) (nsecs : UInt32) :
    Prop where
  isNow : now = true → told = some .now
  isGiven : now = false → given = true → ∃ t, told = some (.time t) ∧ t.Carries secs nsecs
  isNone : now = false → given = false → told = none

/-- The accessors show exactly the fields whose bits are set in the mask: FATTR_MODE is
bit 0, then UID, GID, SIZE, ATIME and MTIME, ATIME_NOW is 7, MTIME_NOW 8 and CTIME 10. -/
structure Setattr.Tells (r : Setattr) (s : KernelSetattr) : Prop where
  mode : r.mode = if s.asks 0 then some s.mode else none
  uid : r.uid = if s.asks 1 then some s.uid else none
  gid : r.gid = if s.asks 2 then some s.gid else none
  size : r.size = if s.asks 3 then some s.size else none
  atime : TellsTime r.atime (s.asks 4) (s.asks 7) s.atime s.atimensec
  mtime : TellsTime r.mtime (s.asks 5) (s.asks 8) s.mtime s.mtimensec
  ctime : r.ctime.isSome = s.asks 10 ∧ ∀ t, r.ctime = some t → t.Carries s.ctime s.ctimensec

/-- The request made of a SETATTR, whatever buffer it was read into. -/
def KernelSetattr.request (h : KernelHeader) (s : KernelSetattr) : Setattr where
  request := ⟨h.unique⟩
  inode := h.nodeid
  fh := if s.valid &&& 0x40 ≠ 0 then some s.fh else none
  toSet := ⟨s.valid &&& 0x5ff⟩
  stat :=
    { Stat.zeroed with
      stMode := s.mode
      stUid := s.uid
      stGid := s.gid
      stSize := s.size.toInt64
      stAtime := s.atime.toInt64
      stAtimeNsec := s.atimensec.toUInt64.toInt64
      stMtime := s.mtime.toInt64
      stMtimeNsec := s.mtimensec.toUInt64.toInt64
      stCtime := s.ctime.toInt64
      stCtimeNsec := s.ctimensec.toUInt64.toInt64 }

section setattr
variable (h : KernelHeader) (s : KernelSetattr)

/-- A flag of the request is the bit of the mask that it names. -/
theorem request_contains {flag : FattrFlags} {bit : Nat} (single : flag.bits.toNat = 2 ^ bit)
    (known : (0x5ff : UInt32) &&& flag.bits = flag.bits) :
    (s.request h).toSet.contains flag = s.asks bit :=
  BitFlags.truncated_contains s.valid single known

theorem durationFromC_carries (secs : UInt64) (nsecs : UInt32) :
    (durationFromC secs.toInt64 nsecs.toUInt64.toInt64).Carries secs nsecs := by
  intro smallSecs smallNsecs
  have signedSecs := SignedWords.toInt_toInt64 smallSecs
  have signedNsecs : nsecs.toUInt64.toInt64.toInt = nsecs.toNat :=
    SignedWords.toInt_toInt64 (Nat.lt_of_lt_of_le nsecs.toNat_lt (by decide))
  constructor
  · apply UInt64.toNat_inj.mp
    change (max secs.toInt64 0).toUInt64.toNat = _
    rw [SignedWords.toNat_max_zero, signedSecs]
    omega
  · apply UInt32.toNat_inj.mp
    change (SignedWords.clamp nsecs.toUInt64.toInt64 0 999999999).toUInt64.toUInt32.toNat = _
    rw [clamp_nanos, signedNsecs]
    omega

/-- A time is told rightly exactly if it is not given and "now" at once. -/
theorem setTime_tells_iff (given now : FattrFlags) {i j : Nat} (single : given.bits.toNat = 2 ^ i)
    (known : (0x5ff : UInt32) &&& given.bits = given.bits) (single' : now.bits.toNat = 2 ^ j)
    (known' : (0x5ff : UInt32) &&& now.bits = now.bits) (secs : UInt64) (nsecs : UInt32) :
    TellsTime (Setattr.setTime (s.request h).toSet given now secs.toInt64 nsecs.toUInt64.toInt64)
      (s.asks i) (s.asks j) secs nsecs ↔ ¬ (s.asks i = true ∧ s.asks j = true) := by
  rw [Setattr.setTime, request_contains h s single known, request_contains h s single' known']
  cases s.asks i with
  | false =>
      refine iff_of_true ?_ (by simp)
      cases s.asks j with
      | false => exact ⟨fun no => (by cases no), fun _ no => (by cases no), fun _ _ => rfl⟩
      | true => exact ⟨fun _ => rfl, fun no => (by cases no), fun no => (by cases no)⟩
  | true =>
      cases s.asks j with
      | false =>
          refine iff_of_true ⟨fun no => (by cases no), fun _ _ => ⟨_, rfl, ?_⟩,
            fun _ no => (by cases no)⟩ (by simp)
          exact durationFromC_carries secs nsecs
      | true =>
          refine iff_of_false (fun tells => ?_) (by simp)
          have now := tells.isNow rfl
          cases now

theorem thenSome_contains {α : Type} (value : α) {flag : FattrFlags} {bit : Nat}
    (single : flag.bits.toNat = 2 ^ bit) (known : (0x5ff : UInt32) &&& flag.bits = flag.bits) :
    thenSome ((s.request h).toSet.contains flag) value = if s.asks bit then some value
      else none := by
  rw [thenSome, request_contains h s single known]

theorem request_tells_iff :
    (s.request h).Tells s ↔ ¬ (s.asks 4 = true ∧ s.asks 7 = true) ∧
      ¬ (s.asks 5 = true ∧ s.asks 8 = true) := by
  have atime : TellsTime (s.request h).atime (s.asks 4) (s.asks 7) s.atime s.atimensec ↔ _ :=
    setTime_tells_iff h s FattrFlags.ATIME FattrFlags.ATIME_NOW rfl rfl rfl rfl s.atime s.atimensec
  have mtime : TellsTime (s.request h).mtime (s.asks 5) (s.asks 8) s.mtime s.mtimensec ↔ _ :=
    setTime_tells_iff h s FattrFlags.MTIME FattrFlags.MTIME_NOW rfl rfl rfl rfl s.mtime s.mtimensec
  have ctime : (s.request h).ctime =
      if s.asks 10 then some (durationFromC s.ctime.toInt64 s.ctimensec.toUInt64.toInt64)
        else none :=
    thenSome_contains h s _ rfl rfl
  constructor
  · intro tells
    exact ⟨atime.mp tells.atime, mtime.mp tells.mtime⟩
  · rintro ⟨atimeOnce, mtimeOnce⟩
    refine ⟨thenSome_contains h s _ rfl rfl, thenSome_contains h s _ rfl rfl, thenSome_contains h s
      _ rfl rfl, thenSome_contains h s _ rfl rfl, atime.mpr atimeOnce, mtime.mpr mtimeOnce, ?_, ?_⟩
    · rw [ctime]
      cases s.asks 10 <;> rfl
    · intro t told
      rw [ctime] at told
      split at told
      · cases told
        exact durationFromC_carries s.ctime s.ctimensec
      · cases told

/-- Undeclared bits of the mask are not seen. -/
theorem request_known {valid : UInt32} (same : valid &&& 0x5ff = s.valid &&& 0x5ff) :
    KernelSetattr.request h { s with valid } = s.request h := by
  have handle : valid &&& 0x40 = s.valid &&& 0x40 := by
    have known : (0x40 : UInt32) = 0x5ff &&& 0x40 := by decide
    rw [known, ← UInt32.and_assoc, same, UInt32.and_assoc]
  simp only [KernelSetattr.request, same, handle]

theorem setattr_fits : ((KernelRequest.setattr s).encode h).length ≤ READ_BUF_SIZE := by
  have length : (KernelRequest.setattr s).body.length = 88 := rfl
  rw [KernelRequest.encode, kernelMessage_length, length]
  decide

/-- A SETATTR tells the consumer what its message asks exactly if no time is given and
"now" at once; bits that the mask does not declare change nothing. -/
theorem setattr_tells_iff :
    ∃ r : Setattr,
      (∀ valid, valid &&& 0x5ff = s.valid &&& 0x5ff →
        ∀ (fuse : Fuse) (buf : Nat) (rest : Bytes) (host : Host) (heap : ArcHeap Bytes),
        fuse.initDone = true → fuse.ops.setattr = true →
        heap.value buf = (KernelRequest.setattr { s with valid }).encode h ++ rest →
        fuse.processRequest buf ((KernelRequest.setattr { s with valid }).encode h).length
          host heap =
          (.ok (), { fuse with pending := fuse.pending ++ [.setattr r] }, host, heap)) ∧
      (r.Tells s ↔ ¬ (s.asks 4 = true ∧ s.asks 7 = true) ∧
        ¬ (s.asks 5 = true ∧ s.asks 8 = true)) := by
  refine ⟨s.request h, ?_, request_tells_iff h s⟩
  intro valid same fuse buf rest host heap ready on filled
  have decoded := processRequest_decodes h (.setattr { s with valid }) fuse buf rest host heap
    (setattr_fits h { s with valid }) filled ready on
  have request : (KernelRequest.setattr { s with valid }).request h buf = .setattr (s.request h) :=
    congrArg Request.setattr (request_known h s same)
  rw [decoded, request]
  rfl

end setattr

/-- A kernel sets ATIME and ATIME_NOW together when a time is to be "now". -/
def touchRequest : KernelSetattr := ⟨0x90, 0, 0, 0, 0, 7, 0, 0, 0, 0, 0, 0, 0, 0, 0, 0⟩

/-- The consumer of a "now" is told the time that happens to be in the message. -/
theorem touch_told_as_time :
    ∃ r : Setattr, ((World.mounted { setattr := true } true (fun _ => .ok) 4096).fuse.processRequest
      0
        ((KernelRequest.setattr touchRequest).encode lookupHeader).length
        (World.mounted { setattr := true } true (fun _ => .ok) 4096).host
        ⟨fun _ => (KernelRequest.setattr touchRequest).encode lookupHeader, fun _ => 1,
          1⟩).2.1.pending =
          [.setattr r] ∧
      r.atime = some (.time ⟨7, 0, by decide⟩) ∧ ¬ r.Tells touchRequest := by
  refine ⟨touchRequest.request lookupHeader, ?_, by decide, ?_⟩
  · have filled : (KernelRequest.setattr touchRequest).encode lookupHeader =
        (KernelRequest.setattr touchRequest).encode lookupHeader ++ [] := (List.append_nil _).symm
    have decoded := processRequest_decodes lookupHeader (.setattr touchRequest)
      (World.mounted { setattr := true } true (fun _ => .ok) 4096).fuse 0 []
      (World.mounted { setattr := true } true (fun _ => .ok) 4096).host
      ⟨fun _ => (KernelRequest.setattr touchRequest).encode lookupHeader, fun _ => 1, 1⟩
      (setattr_fits lookupHeader touchRequest) filled rfl rfl
    rw [decoded]
    rfl
  · intro tells
    exact ((request_tells_iff lookupHeader touchRequest).mp tells).1 (by decide)

end ProxmoxFuse
