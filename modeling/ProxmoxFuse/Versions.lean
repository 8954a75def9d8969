import ProxmoxFuse.Handshake
import ProxmoxFuse.Negotiation

/-!
# Kernels of protocol 7

The body of INIT grew once within protocol 7: from minor 36 on it has a second
word of flags and reserved space behind the four words it always had. The session
reads the long form and asks for minor 31.
-/
namespace ProxmoxFuse

/-- The body of INIT as a kernel of that minor version lays it out. -/
def kernelInit (minor maxReadahead flags : UInt32) (extra : List.Vector UInt8 48) : Bytes :=
  le32 7 ++ (le32 minor ++
    (le32 maxReadahead ++ (le32 flags ++ if minor < 36 then [] else extra.toList)))

/-- A reply that the kernel may rely on. -/
structure SoundReply (minor flags : UInt32) (pageSize : Int64) (out : FuseInitOut) : Prop where
  version : out.minor.toNat = min minor.toNat 31
  subset : out.flags &&& flags = out.flags
  pages : out.advertises InitFlags.MAX_PAGES ↔ flags &&& InitFlags.MAX_PAGES.bits =
    InitFlags.MAX_PAGES.bits
  product : out.advertises InitFlags.MAX_PAGES → out.maxPages.toNat * pageSize.toInt =
    out.maxWrite.toNat
  unpaged : ¬ out.advertises InitFlags.MAX_PAGES → out.maxPages = 0

section reply
variable (initIn : FuseInitIn) (ops : EnabledOps) {pageSize : Int64}

theorem negotiateInit_subset :
    (negotiateInit initIn ops pageSize).flags &&& initIn.flags =
      (negotiateInit initIn ops pageSize).flags := by
  obtain ⟨ours, masked⟩ : ∃ ours, (negotiateInit initIn ops pageSize).flags =
      ours &&& (initIn.flags &&& 0x1426029) :=
    ⟨_, rfl⟩
  rw [masked, UInt32.and_comm initIn.flags, ← UInt32.and_assoc, UInt32.and_assoc _ initIn.flags,
    UInt32.and_self]

theorem negotiateInit_minor :
    (negotiateInit initIn ops pageSize).minor.toNat = min initIn.minor.toNat 31 := by
  have value : (negotiateInit initIn ops pageSize).minor = if initIn.minor ≤ 31 then initIn.minor
      else 31 := rfl
  have bound : (31 : UInt32).toNat = 31 := rfl
  rw [value]
  split
  · next small =>
      have le := UInt32.le_iff_toNat_le.mp small
      omega
  · next large =>
      have lt := mt UInt32.le_iff_toNat_le.mpr large
      omega

theorem maxPages_single : InitFlags.MAX_PAGES.bits.toNat = 2 ^ 22 := by decide

theorem offers_maxPages :
    (BitFlags.fromBitsTruncate initIn.flags : InitFlags).contains InitFlags.MAX_PAGES =
    initIn.flags.toNat.testBit 22 :=
  BitFlags.truncated_contains initIn.flags maxPages_single (by decide)

/-- The bit of MAX_PAGES is set if it was offered, and the pages are counted then. -/
theorem negotiateInit_pages (positive : pageSize > 0) :
    (negotiateInit initIn ops pageSize).flags.toNat.testBit 22 = initIn.flags.toNat.testBit 22 ∧
      (negotiateInit initIn ops pageSize).maxPages =
        if initIn.flags.toNat.testBit 22 then UInt16.ofNat (MAX_WRITE / pageSize.toUInt64.toNat)
          else 0 := by
  have kernel := truncated_testBit initIn.flags (i := 22) (by decide)
  have own : InitFlags.MAX_PAGES.bits.toNat.testBit 22 = true := by decide
  cases offered : initIn.flags.toNat.testBit 22 with
  | true =>
      simp only [negotiateInit, offers_maxPages, offered, positive, if_true, BitFlags.inter_testBit,
        BitFlags.union_testBit, own, kernel, Bool.or_true, Bool.and_true, and_self]
  | false =>
      simp only [negotiateInit, offers_maxPages, offered, if_false, BitFlags.inter_testBit, kernel,
        Bool.and_false, Bool.false_eq_true, and_self]

/-- Whole pages make up the largest write. -/
theorem pages_product {k : Nat} (lower : 12 ≤ k) (upper : k ≤ 18)
    (page : pageSize.toInt = (2 ^ k : Nat)) :
    (UInt16.ofNat (MAX_WRITE / pageSize.toUInt64.toNat)).toNat * pageSize.toInt = MAX_WRITE := by
  have value : pageSize.toUInt64.toNat = 2 ^ k := by
    have nonneg : 0 ≤ pageSize.toInt := by
      rw [page]
      exact Int.natCast_nonneg _
    rw [SignedWords.toNat_toUInt64 nonneg, page, Int.toNat_natCast]
  have total : MAX_WRITE = 2 ^ (18 - k) * 2 ^ k := by
    rw [← pow_add, Nat.sub_add_cancel upper]
    rfl
  have quotient : MAX_WRITE / 2 ^ k = 2 ^ (18 - k) := by
    rw [total, Nat.mul_div_cancel _ (Nat.two_pow_pos k)]
  have small : 2 ^ (18 - k) < 2 ^ 16 := Nat.pow_lt_pow_right (by decide) (by omega)
  rw [value, quotient, UInt16.toNat_ofNat_of_lt' small, page, total]
  norm_cast

theorem negotiateInit_sound {k : Nat} (lower : 12 ≤ k) (upper : k ≤ 18)
    (page : pageSize.toInt = (2 ^ k : Nat)) :
    SoundReply initIn.minor initIn.flags pageSize (negotiateInit initIn ops pageSize) := by
  have positive : pageSize > 0 := by
    refine Int64.lt_iff_toInt_lt.mpr ?_
    rw [page]
    exact Int.natCast_pos.mpr (Nat.two_pow_pos k)
  obtain ⟨bit, count⟩ := negotiateInit_pages initIn ops positive
  have advertised :=
    FlagWords.and_eq_self_iff maxPages_single (negotiateInit initIn ops pageSize).flags
  have offered := FlagWords.and_eq_self_iff maxPages_single initIn.flags
  rw [bit] at advertised
  refine ⟨negotiateInit_minor initIn ops, negotiateInit_subset initIn ops,
    advertised.trans offered.symm, ?_, ?_⟩
  · intro set
    rw [count, if_pos (advertised.mp set)]
    exact pages_product lower upper page
  · intro unset
    rw [count, if_neg (mt advertised.mpr unset)]

end reply

/-! ### Sessions -/

/-- An INIT that succeeds with a sound reply, and whose writes are then taken. -/
structure Negotiated (minor flags : UInt32) (unique : UInt64) (s : Fuse × Host) (d : Delivery) :
    Prop where
  opened : (d.process s).1 = .ok () ∧ (d.process s).2.1.initDone = true
  replied : ∃ out : FuseInitOut, SoundReply minor flags s.2.pageSize out ∧
    (d.process s).2.2 = s.2.extend [replyAttempt unique 0 [Packed.bytes out] 64 .ok] ∧
    ∀ h fh offset writeFlags lockOwner flags padding data q,
      q = KernelRequest.write fh offset writeFlags lockOwner flags padding data →
        data.length ≤ out.maxWrite.toNat →
      (q.encode h).length ≤ READ_BUF_SIZE ∧
        (s.1.ops.write = true → ∀ (later : List Delivery) (w : Delivery),
        w.bytes = q.encode h → (w.process (feed (d.process s).2 later)).1 = .ok () ∧
          (w.process (feed (d.process s).2 later)).2.1.pending =
            (feed (d.process s).2 later).1.pending ++ [q.request h w.buf])

section sessions
variable {h : KernelHeader} {minor maxReadahead flags : UInt32} {extra : List.Vector UInt8 48}
  {d : Delivery}

theorem kernelInit_length :
    (kernelInit minor maxReadahead flags extra).length = if minor < 36 then 16 else 64 := by
  by_cases old : minor < 36
  · simp only [kernelInit, if_pos old]
    rfl
  · have whole : extra.toList.length = 48 := extra.toList_length
    simp [kernelInit, le32, if_neg old, whole]

theorem kernelInit_accepted
    (bytes : d.bytes = kernelMessage h 26 (kernelInit minor maxReadahead flags extra)) :
    accepted d.bytes = some (h.inHeader 26 (kernelInit minor maxReadahead flags extra).length,
      kernelInit minor maxReadahead flags extra) := by
  rw [bytes]
  refine kernelMessage_accepted h 26 ?_
  rw [kernelInit_length]
  split <;> decide

/-- The short INIT is refused: the session waits for a body of 64 bytes. -/
theorem short_init_refused
    (bytes : d.bytes = kernelMessage h 26 (kernelInit minor maxReadahead flags extra))
    (old : minor < 36) (fuse : Fuse) (host : Host) (waiting : fuse.initDone = false) :
    Fails (d.process (fuse, host)).1 := by
  have shut : ¬ d.Opens (fuse, host) := by
    rintro ⟨⟨header, body, good, -, long, -⟩, -⟩
    rw [kernelInit_accepted bytes] at good
    cases good
    rw [kernelInit_length, if_pos old] at long
    exact absurd long (by decide)
  obtain ⟨e, made, refused, -⟩ := Delivery.process_waiting waiting shut
  rw [refused]
  exact ⟨e, rfl⟩

/-- The words in front of a body are the fields of INIT. -/
theorem initIn_fields (major minor maxReadahead flags : UInt32) (rest : Bytes) {initIn : FuseInitIn}
    (same : initIn = Packed.ofBytes
      (le32 major ++ (le32 minor ++ (le32 maxReadahead ++ (le32 flags ++ rest))))) :
    initIn.major = major ∧ initIn.minor = minor ∧ initIn.flags = flags := by
  subst same
  exact ⟨Packed.ofBytes_append major _, Packed.ofBytes_append minor _,
    Packed.ofBytes_append flags _⟩

/-- A write of any size that was negotiated fits the buffer. -/
theorem write_fits (h : KernelHeader) (fh offset : UInt64) (writeFlags : UInt32)
    (lockOwner : UInt64) (flags padding : UInt32) {data : Bytes} (small : data.length ≤ MAX_WRITE) :
    ((KernelRequest.write fh offset writeFlags lockOwner flags padding data).encode h).length ≤
      READ_BUF_SIZE := by
  have fixed : (KernelRequest.write fh offset writeFlags lockOwner flags padding
      data).fixed.length = 40 := by
    simp [KernelRequest.fixed, KernelRequest.readIn, le32, le64]
  have tail : (KernelRequest.write fh offset writeFlags lockOwner flags padding data).tail = data :=
    rfl
  have length : ((KernelRequest.write fh offset writeFlags lockOwner flags padding data).encode
      h).length =
      40 + (40 + data.length) := by
    rw [KernelRequest.encode, kernelMessage_length, KernelRequest.body, List.length_append, fixed,
      tail]
  have buffer : READ_BUF_SIZE = MAX_WRITE + 4096 := rfl
  omega

/-- An open session queues what is enabled in it, whatever it was fed before. -/
theorem open_session_queues {s : Fuse × Host} (ready : s.1.initDone = true) (later : List Delivery)
    {w : Delivery} {q : KernelRequest} (bytes : w.bytes = q.encode h)
    (fits : (q.encode h).length ≤ READ_BUF_SIZE) (on : q.enabledIn s.1.ops = true) :
    (w.process (feed s later)).1 = .ok () ∧
      (w.process (feed s later)).2.1.pending = (feed s later).1.pending ++ [q.request h w.buf] := by
  have phase : Phase s.1.ops s.2.pageSize s :=
    ⟨rfl, rfl, fun waiting => absurd ready (Bool.eq_false_iff.mp waiting)⟩
  have still : (feed s later).1.initDone = true := (feed_initDone s later).mpr (.inl ready)
  have enabled : q.enabledIn (feed s later).1.ops = true := by
    rw [(phase.feed later).operations]
    exact on
  rw [Delivery.process_decodes _ bytes fits still enabled]
  exact ⟨rfl, rfl⟩

/-- The INIT of a kernel is taken exactly if its body is the long one. -/
theorem protocol7_negotiated_iff (h : KernelHeader) (minor maxReadahead flags : UInt32)
    (extra : List.Vector UInt8 48) (fuse : Fuse) (host : Host) (d : Delivery) (k : Nat)
    (bytes : d.bytes = kernelMessage h 26 (kernelInit minor maxReadahead flags extra))
    (waiting : fuse.initDone = false) (sent : host.next = .ok) (lower : 12 ≤ k) (upper : k ≤ 18)
    (page : host.pageSize.toInt = (2 ^ k : Nat)) :
    Negotiated minor flags h.unique (fuse, host) d ↔ 36 ≤ minor.toNat := by
  have boundary : minor < 36 ↔ minor.toNat < 36 := UInt32.lt_iff_toNat_lt
  constructor
  · intro negotiated
    by_contra old
    have refused := short_init_refused bytes (boundary.mpr (Nat.not_le.mp old)) fuse host waiting
    exact refused.ne_ok () negotiated.opened.1
  · intro recent
    have long : ¬ minor < 36 := mt boundary.mp (Nat.not_lt.mpr recent)
    have good := kernelInit_accepted bytes
    obtain ⟨major, version, offered⟩ := initIn_fields 7 minor maxReadahead flags _
      (rfl : (Packed.ofBytes (kernelInit minor maxReadahead flags extra) : FuseInitIn) = _)
    have init : d.Init _ _ := ⟨good, rfl, by rw [kernelInit_length, if_neg long], major⟩
    have processed := Delivery.process_opening waiting init sent
    have sound :=
      negotiateInit_sound (Packed.ofBytes (kernelInit minor maxReadahead flags extra)) fuse.ops
        lower upper page
    rw [version, offered] at sound
    refine ⟨?_, _, sound, ?_, ?_⟩
    · rw [processed]
      exact ⟨rfl, rfl⟩
    · rw [processed, initAttempt, sent]
      rfl
    · rintro h' fh offset writeFlags lockOwner flags' padding data q rfl small
      have fits := write_fits h' fh offset writeFlags lockOwner flags' padding small
      refine ⟨fits, ?_⟩
      intro on later w same
      refine open_session_queues ?_ later same fits ?_
      · rw [processed]
      · rw [processed]
        exact on

end sessions

/-- A session of the default builder, and the INIT of a kernel of some minor version. -/
def defaultSession : Fuse × Host := fresh (Fuse.builder "fs").ops (fun _ => .ok) 4096

def initOf (minor : UInt32) : Delivery :=
  .alone (kernelMessage ⟨1, 0, 0, 0, 0, 0, 0⟩ 26
    (kernelInit minor 131072 0x400001 (List.Vector.replicate 48 0)))

theorem protocol7_negotiated_recent : Negotiated 36 0x400001 1 defaultSession (initOf 36) :=
  (protocol7_negotiated_iff ⟨1, 0, 0, 0, 0, 0, 0⟩ 36 131072 0x400001 (List.Vector.replicate 48 0)
    defaultSession.1
    defaultSession.2 (initOf 36) 12 rfl rfl rfl (by decide) (by decide) (by decide)).mpr (by decide)

/-- The session asks for minor 31, and refuses the INIT of a kernel of minor 31. -/
theorem targeted_kernel_refused :
    Fails ((initOf 31).process defaultSession).1 ∧
      ¬ Negotiated 31 0x400001 1 defaultSession (initOf 31) := by
  have refused : Fails ((initOf 31).process defaultSession).1 :=
    short_init_refused (h := ⟨1, 0, 0, 0, 0, 0, 0⟩) rfl (by decide) defaultSession.1
      defaultSession.2 rfl
  refine ⟨refused, ?_⟩
  intro negotiated
  exact refused.ne_ok () negotiated.opened.1

end ProxmoxFuse
