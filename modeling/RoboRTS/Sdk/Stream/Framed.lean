import RoboRTS.Sdk.Stream.Discipline
import RoboRTS.Sdk.Stream.Receive

/-!
# Streams of frames with noise between them

What the parser makes of a stream in which frames stand behind one another with other bytes between
them. After a frame `PrepareStream` keeps the last eleven bytes of it, so the windows of a stream
start in the noise, at the frames, and in the last eleven bytes of the frames. When the only windows
with a valid header are the frames (`Clear`), `feed_segments` gives every answer of `ByteHandler`:
each frame is handed over once, in order, at its last byte, and no other byte changes anything.
-/

namespace RoboRTS.Sdk

/-- Bytes that are not part of a frame, and the frame behind them. -/
structure Segment where
  noise : List UInt8
  frame : List UInt8

namespace Segment

/-- The bytes of a segment in the order in which they arrive. -/
def bytes (segment : Segment) : List UInt8 :=
  segment.noise ++ segment.frame

/-- The stream: the segments one behind the other, and the bytes behind the last frame. -/
def stream (segments : List Segment) (tail : List UInt8) : List UInt8 :=
  segments.flatMap bytes ++ tail

@[simp] theorem stream_nil (tail : List UInt8) : stream [] tail = tail := rfl

theorem stream_cons (segment : Segment) (segments : List Segment) (tail : List UInt8) :
    stream (segment :: segments) tail = segment.bytes ++ stream segments tail := by
  simp [stream]

theorem length_stream_cons (segment : Segment) (segments : List Segment) (tail : List UInt8) :
    (stream (segment :: segments) tail).length =
      segment.noise.length + segment.frame.length + (stream segments tail).length := by
  rw [stream_cons, bytes, List.length_append, List.length_append]

end Segment

/-- None of the windows that start in the first `count` bytes of a list and end in it has a valid
header. -/
def NoHeader (device : UInt8) (bytes : List UInt8) (count : Nat) : Prop :=
  ∀ i < count, i + HEADER_LEN ≤ bytes.length →
    headerValid device (ByteMemory.ofList bytes) i = false

/-- The frames are the only windows with a valid header. The bytes `kept` are the last ones of the
frame before, which `PrepareStream` keeps in the buffer. -/
def Clear (device : UInt8) : List UInt8 → List Segment → List UInt8 → Prop
  | kept, [], tail => NoHeader device (kept ++ tail) (kept ++ tail).length
  | kept, segment :: segments, tail =>
      NoHeader device (kept ++ segment.noise ++ segment.frame)
          (kept.length + segment.noise.length) ∧
        Clear device (segment.frame.drop (segment.frame.length - (HEADER_LEN - 1))) segments tail

instance (device : UInt8) (bytes : List UInt8) (count : Nat) :
    Decidable (NoHeader device bytes count) :=
  inferInstanceAs (Decidable (∀ i < count, i + HEADER_LEN ≤ bytes.length →
    headerValid device (ByteMemory.ofList bytes) i = false))

instance decidableClear (device : UInt8) : ∀ (kept : List UInt8) (segments : List Segment)
    (tail : List UInt8), Decidable (Clear device kept segments tail)
  | kept, [], tail =>
      inferInstanceAs (Decidable (NoHeader device (kept ++ tail) (kept ++ tail).length))
  | kept, segment :: segments, tail =>
      have := decidableClear device
        (segment.frame.drop (segment.frame.length - (HEADER_LEN - 1))) segments tail
      inferInstanceAs (Decidable (NoHeader device (kept ++ segment.noise ++ segment.frame)
          (kept.length + segment.noise.length) ∧
        Clear device (segment.frame.drop (segment.frame.length - (HEADER_LEN - 1))) segments tail))

section

variable {σ : Type*}

/-- What `ByteHandler` should answer along a stream of segments: the handler's answer at the last
byte of each frame, and false with an unchanged state at every other byte. -/
def answers (handle : List UInt8 → Nat → σ → Option (σ × Bool)) :
    List Segment → Nat → σ → Option (List (σ × Bool))
  | [], tail, app => some (List.replicate tail (app, false))
  | segment :: segments, tail, app =>
      (handle segment.frame 0 app).bind fun out =>
        (answers handle segments tail out.1).map fun rest =>
          List.replicate (segment.bytes.length - 1) (app, false) ++ out :: rest

variable {device : UInt8} {h : List UInt8 → Nat → σ → Option (σ × Bool)}
variable {x y : ByteMemory} {m n : Nat}

/-! ## Windows in lists -/

/-- A header is decided by its twelve bytes. -/
theorem headerValid_congr {m' : Nat} (hbytes : ∀ i < 12, x (m + i) = y (m' + i)) :
    headerValid device x m = headerValid device y m' := by
  have hdecode : Header.decode x m = Header.decode y m' :=
    Header.decode_congr fun i hi => hbytes i (by omega)
  have hread : x.read m HEADER_LEN = y.read m' HEADER_LEN := ByteMemory.read_congr hbytes
  simp only [headerValid, hdecode, hread]

/-- A list that lies in the stream says which of its windows have a valid header. -/
theorem NoHeader.invalid {bytes : List UInt8} {count i : Nat} (hclear : NoHeader device bytes count)
    (hread : x.read m bytes.length = bytes) (hi : i < count) (hend : i + 12 ≤ bytes.length) :
    headerValid device x (m + i) = false := by
  rw [← hclear i hi hend]
  refine headerValid_congr fun j hj => ?_
  rw [Nat.add_assoc]
  exact ByteMemory.apply_of_read hread (by omega)

/-- Where a valid frame lies in the stream the window is accepted. -/
theorem ValidFrame.accepted {frame : List UInt8} (hframe : ValidFrame device frame)
    (hread : x.read m frame.length = frame) :
    Scan.accepted device x m = true ∧ Scan.len x m = frame.length := by
  have h12 : 12 ≤ frame.length := hframe.header_len
  have hdecode : Header.decode x m = Header.decode (ByteMemory.ofList frame) 0 := by
    refine Header.decode_congr fun i hi => ?_
    rw [ByteMemory.apply_of_read hread (show i < frame.length by omega), Nat.zero_add]
  have hlen : Scan.len x m = frame.length := by rw [Scan.len, hdecode, hframe.length]
  refine ⟨Scan.accepted_iff.mpr ⟨headerValid_iff.mpr ?_, by rw [hlen]; exact h12, ?_⟩, hlen⟩
  · have hlt := Header.length_decode_lt x m
    refine ⟨by rw [hdecode, hframe.sof], by rw [hdecode, hframe.version], ?_,
      by rw [hdecode, hframe.reserved0], by rw [hdecode, hframe.reserved1],
      by rw [hdecode]; exact hframe.receiver, ?_⟩
    · simp only [MAX_PACK_SIZE]
      omega
    · rw [← ByteMemory.take_read x m (show HEADER_LEN ≤ frame.length from h12), hread, hframe.head]
  · rw [hlen, hread, crcTailCheck, beq_iff_eq]
    rcases Nat.lt_or_eq_of_le h12 with hlt | heq
    · exact Or.inr (hframe.tail hlt)
    · exact Or.inl heq.symm

/-! ## Scanning to the next frame -/

/-- Windows without a valid header answer nothing, up to the end of the stream. -/
theorem Scan.scanFeed_noise (count : Nat) : ∀ {m n : Nat} (app : σ), n ≤ m + 11 →
    (∀ i, m ≤ i → i + 12 ≤ n + count → headerValid device x i = false) →
    Scan.scanFeed device h x n count m app = some (List.replicate count (app, false)) := by
  induction count with
  | zero =>
      intro m n app hn hinvalid
      rfl
  | succ count ih =>
      intro m n app hn hinvalid
      rw [Scan.scanFeed]
      have hdue := Scan.add_le_due device x m
      rcases Nat.lt_or_eq_of_le hn with hlt | heq
      · -- the window does not have its twelve bytes yet
        rw [Scan.scan_of_lt (by omega), Option.bind_some,
          ih app (by omega) fun i hi hend => hinvalid i hi (by omega)]
        rfl
      · have hwrong := hinvalid m (Nat.le_refl m) (by omega)
        have hrej : Scan.accepted device x m = false := by
          rw [Scan.accepted, hwrong]
          rfl
        have hlater := Scan.add_le_due device x (m + 1)
        rw [Scan.scan_of_le (by rw [Scan.due_of_invalid hwrong]; omega),
          Scan.decideWindow_of_rejected hrej, Option.bind_some, Scan.next_of_invalid hwrong,
          Scan.scan_of_lt (by omega), Option.bind_some,
          ih app (by omega) fun i hi hend => hinvalid i (by omega) (by omega)]
        rfl

/-- Windows without a valid header, and the frame behind them, answer at the last byte of the
frame; then the scan goes on eleven bytes before the frame's end. -/
theorem Scan.scanFeed_segment {s : Nat} (hacc : Scan.accepted device x s = true) (count : Nat)
    (before : Nat) : ∀ {m n : Nat} (app : σ), m ≤ s → n < Scan.due device x m → n < m + 12 ∨ m = s →
    n + (before + 1) = s + Scan.len x s →
    (∀ i, m ≤ i → i < s → headerValid device x i = false) →
    Scan.scanFeed device h x n (before + 1 + count) m app =
      (h (x.read s (Scan.len x s)) 0 app).bind fun out =>
        (Scan.scanFeed device h x (s + Scan.len x s) count (s + Scan.len x s - 11) out.1).map
          fun rest => List.replicate before (app, false) ++ out :: rest := by
  have hl : 12 ≤ Scan.len x s := (Scan.accepted_iff.mp hacc).2.1
  have hdue := Scan.due_of_accepted hacc
  induction before with
  | zero =>
      intro m n app hms hundecided hnear hend hinvalid
      have hm : m = s := by omega
      subst m
      have hlater := Scan.resume_lt_due_next device x s
      rw [Scan.resume_of_accepted hacc, hdue] at hlater
      rw [show 0 + 1 + count = count + 1 by omega, Scan.scanFeed, Scan.scan_of_le (by omega),
        Scan.decideWindow_of_accepted hacc, hdue, show n + 1 = s + Scan.len x s by omega,
        Nat.sub_self]
      cases h (x.read s (Scan.len x s)) 0 app with
      | none => rfl
      | some out =>
          rw [Option.bind_some, Scan.scan_of_lt hlater, Option.bind_some, Option.bind_some,
            Scan.next_of_accepted hacc]
          simp
  | succ before ih =>
      intro m n app hms hundecided hnear hend hinvalid
      rw [show before + 1 + 1 + count = before + 1 + count + 1 by omega, Scan.scanFeed]
      have hrest : ∀ {m' : Nat}, m' ≤ s → m ≤ m' → n + 1 < Scan.due device x m' →
          n + 1 < m' + 12 ∨ m' = s →
          (Scan.scanFeed device h x (n + 1) (before + 1 + count) m' app).map
              (fun rest => (app, false) :: rest) =
            (h (x.read s (Scan.len x s)) 0 app).bind fun out =>
              (Scan.scanFeed device h x (s + Scan.len x s) count (s + Scan.len x s - 11)
                out.1).map fun rest => List.replicate (before + 1) (app, false) ++ out :: rest := by
        intro m' hm's hmm' hwait hnear'
        rw [ih app hm's hwait hnear' (by omega) fun i hi his => hinvalid i (by omega) his,
          Option.map_bind]
        simp only [Option.map_map, Function.comp_def, List.replicate_succ, List.cons_append]
      by_cases hwait : n + 1 < Scan.due device x m
      · have hnear' : n + 1 < m + 12 ∨ m = s := by
          rcases Nat.lt_or_eq_of_le hms with hlt | heq
          · rw [Scan.due_of_invalid (hinvalid m (Nat.le_refl m) hlt)] at hwait
            exact Or.inl hwait
          · exact Or.inr heq
        rw [Scan.scan_of_lt hwait, Option.bind_some]
        exact hrest hms (Nat.le_refl m) hwait hnear'
      · -- the window is decided by this byte: it is not the frame, which ends later
        have hlt : m < s := by
          rcases Nat.lt_or_eq_of_le hms with hlt | rfl
          · exact hlt
          · rw [hdue] at hwait
            omega
        have hwrong := hinvalid m (Nat.le_refl m) hlt
        have hrej : Scan.accepted device x m = false := by
          rw [Scan.accepted, hwrong]
          rfl
        rw [Scan.due_of_invalid hwrong] at hwait hundecided
        have hlater := Scan.add_le_due device x (m + 1)
        rw [Scan.scan_of_le (by rw [Scan.due_of_invalid hwrong]; omega),
          Scan.decideWindow_of_rejected hrej, Option.bind_some, Scan.next_of_invalid hwrong,
          Scan.scan_of_lt (show n + 1 < Scan.due device x (m + 1) by omega), Option.bind_some]
        exact hrest (show m + 1 ≤ s by omega) (Nat.le_succ m)
          (show n + 1 < Scan.due device x (m + 1) by omega) (Or.inl (by omega))

/-! ## The whole stream -/

/-- Scanning the segments of a stream from any point before the first of them, with the bytes kept
from the frame before it still in the open window. -/
theorem Scan.scanFeed_segments (tail : List UInt8) (segments : List Segment) :
    ∀ {m n : Nat} (app : σ), m ≤ n → n ≤ m + 11 →
      (∀ segment ∈ segments, ValidFrame device segment.frame) →
      x.read n (Segment.stream segments tail).length = Segment.stream segments tail →
      Clear device (x.read m (n - m)) segments tail →
      Scan.scanFeed device h x n (Segment.stream segments tail).length m app =
        answers h segments tail.length app := by
  induction segments with
  | nil =>
      intro m n app hmn hnear hvalid hread hclear
      refine Scan.scanFeed_noise _ app hnear fun i hi hend => ?_
      obtain ⟨k, rfl⟩ := Nat.exists_eq_add_of_le hi
      have hkept : (x.read m (n - m) ++ tail).length = n - m + tail.length := by
        rw [List.length_append, ByteMemory.length_read]
      rw [Segment.stream_nil] at hread hend
      refine NoHeader.invalid hclear ?_ (by omega) (by omega)
      rw [hkept, ByteMemory.read_add, show m + (n - m) = n by omega, hread]
  | cons segment segments ih =>
      intro m n app hmn hnear hvalid hread hclear
      obtain ⟨hnoise, hframe⟩ := hclear
      rw [Segment.stream_cons, Segment.bytes, List.append_assoc] at hread
      obtain ⟨hread₁, hread⟩ := ByteMemory.read_append_inj hread
      obtain ⟨hread₂, hread₃⟩ := ByteMemory.read_append_inj hread
      have hseg := hvalid segment (List.mem_cons_self ..)
      have h12 : 12 ≤ segment.frame.length := hseg.header_len
      obtain ⟨hacc, hlen⟩ := hseg.accepted hread₂
      have hkept := ByteMemory.length_read x m (n - m)
      have hinvalid : ∀ i, m ≤ i → i < n + segment.noise.length →
          headerValid device x i = false := by
        intro i hi his
        obtain ⟨k, rfl⟩ := Nat.exists_eq_add_of_le hi
        refine hnoise.invalid ?_ (by omega) (by simp only [List.length_append]; omega)
        rw [List.length_append, List.length_append, hkept, ByteMemory.read_add,
          ByteMemory.read_add, show m + (n - m) = n by omega, hread₁,
          show m + (n - m + segment.noise.length) = n + segment.noise.length by omega, hread₂]
      have hdue := Scan.add_le_due device x m
      have hundecided : n < Scan.due device x m := by omega
      have hbytes : segment.bytes.length = segment.noise.length + segment.frame.length :=
        List.length_append
      -- the bytes kept from this frame
      have hdrop : segment.frame.drop (segment.frame.length - (HEADER_LEN - 1)) =
          x.read (n + segment.noise.length + segment.frame.length - 11) 11 := by
        rw [← hread₂, ByteMemory.length_read, ByteMemory.drop_read _ _ (Nat.sub_le _ _)]
        simp only [HEADER_LEN]
        congr 1 <;> omega
      have hscan := Scan.scanFeed_segment (h := h) hacc
        (Segment.stream segments tail).length (segment.bytes.length - 1) app
        (show m ≤ n + segment.noise.length by omega) hundecided (Or.inl (by omega))
        (by rw [hlen, hbytes]; omega) hinvalid
      rw [hlen, hread₂] at hscan
      rw [Segment.length_stream_cons, answers, ← hbytes,
        show segment.bytes.length = segment.bytes.length - 1 + 1 by omega, hscan]
      cases h segment.frame 0 app with
      | none => rfl
      | some out =>
          rw [Option.bind_some, Option.bind_some]
          rw [ih out.1 (Nat.sub_le _ _) (by omega)
            (fun s hs => hvalid s (List.mem_cons_of_mem _ hs)) ?_ ?_]
          · rfl
          · exact hread₃
          · rw [hdrop] at hframe
            rwa [show n + segment.noise.length + segment.frame.length -
              (n + segment.noise.length + segment.frame.length - 11) = 11 by omega]

/-- The answers of `ByteHandler` along a stream of segments, from the initial state. -/
theorem feed_segments (buff : ByteMemory) (app : σ) {segments : List Segment} {tail : List UInt8}
    (hvalid : ∀ segment ∈ segments, ValidFrame device segment.frame)
    (hclear : Clear device [] segments tail) :
    (feed device (onFrame h) (Segment.stream segments tail) (RecvStream.init buff) app).map
        (List.map fun p => (p.app, p.isFrame)) =
      answers h segments tail.length app := by
  rw [feed_scan (x := ByteMemory.ofList (Segment.stream segments tail)) _ app
    (fun i hi => by rw [Nat.zero_add]; exact ByteMemory.ofList_apply _ hi)
    (ready_init device _ buff)]
  exact Scan.scanFeed_segments tail segments app (Nat.le_refl 0) (Nat.zero_le _) hvalid
    (ByteMemory.read_ofList _) hclear

/-! ## Handing frame ends again -/

/-- The bytes `handed` reach the parser with the answers `flags` when `Receive` works through
`bytes`: the byte of a positive answer stays at the read position and is handed again. -/
inductive Repeats : List UInt8 → List Bool → List UInt8 → Prop
  | done : Repeats [] [] []
  | pass {handed flags bytes} (byte : UInt8) :
      Repeats handed flags bytes → Repeats (byte :: handed) (false :: flags) (byte :: bytes)
  | again {handed flags byte bytes} :
      Repeats handed flags (byte :: bytes) →
      Repeats (byte :: handed) (true :: flags) (byte :: bytes)

/-- Bytes that the parser does not answer are handed as they are. -/
theorem Repeats.passes {handed bytes : List UInt8} {flags : List Bool}
    (h : Repeats handed flags bytes) (more : List UInt8) :
    Repeats (more ++ handed) (List.replicate more.length false ++ flags) (more ++ bytes) := by
  induction more with
  | nil => exact h
  | cons byte more ih => exact .pass byte ih

/-- What the parser answers to the bytes handed is what `Receive` returns of the device's bytes. -/
theorem Repeats.hands {parse : RecvStream → σ → Option (σ × Bool)} {handed bytes : List UInt8}
    {flags : List Bool} (h : Repeats handed flags bytes) :
    ∀ {s : RecvStream} {app : σ} {results : List (Parsed σ)} (i : Nat),
      feed device parse handed s app = some results → results.map Parsed.isFrame = flags →
      ∃ out s' app', Receiver.Hands device parse bytes i s app out
        ((results.filter Parsed.isFrame).map Parsed.app) s' app' := by
  induction h with
  | done =>
      intro s app results i hfeed hflags
      cases hfeed
      exact ⟨[], s, app, .done i s app⟩
  | @pass handed flags bytes byte hrepeats ih =>
      intro s app results i hfeed hflags
      rw [feed, Option.bind_eq_some_iff] at hfeed
      obtain ⟨⟨s₁, app₁, flag⟩, hbyte, hrest⟩ := hfeed
      obtain ⟨rest, hfed, rfl⟩ := Option.map_eq_some_iff.mp hrest
      obtain ⟨hflag, hrestFlags⟩ := List.cons.inj hflags
      obtain rfl : flag = false := hflag
      obtain ⟨out, s', app', hhands⟩ := ih (i + 1) hfed hrestFlags
      exact ⟨_, s', app', .pass hbyte hhands⟩
  | @again handed flags byte bytes hrepeats ih =>
      intro s app results i hfeed hflags
      rw [feed, Option.bind_eq_some_iff] at hfeed
      obtain ⟨⟨s₁, app₁, flag⟩, hbyte, hrest⟩ := hfeed
      obtain ⟨rest, hfed, rfl⟩ := Option.map_eq_some_iff.mp hrest
      obtain ⟨hflag, hrestFlags⟩ := List.cons.inj hflags
      obtain rfl : flag = true := hflag
      obtain ⟨out, s', app', hhands⟩ := ih i hfed hrestFlags
      exact ⟨_, s', app', .frame hbyte hhands⟩

/-- The last byte of a frame, as a list. -/
def Segment.lastByte (segment : Segment) : List UInt8 :=
  segment.frame.drop (segment.frame.length - 1)

/-- The segments that reach the parser through `Receive` after the bytes `again` were handed again:
the last byte of each frame comes once more, before the noise behind the frame. -/
def handedSegments : List UInt8 → List Segment → List Segment
  | _, [] => []
  | again, segment :: segments =>
      { segment with noise := again ++ segment.noise } :: handedSegments segment.lastByte segments

/-- The bytes that reach the parser behind the last frame. -/
def handedTail : List UInt8 → List Segment → List UInt8 → List UInt8
  | again, [], tail => again ++ tail
  | _, segment :: segments, tail => handedTail segment.lastByte segments tail

/-- The answers to segments whose frames are all answered. -/
def segmentFlags : List Segment → Nat → List Bool
  | [], tail => List.replicate tail false
  | segment :: segments, tail =>
      List.replicate (segment.bytes.length - 1) false ++ true :: segmentFlags segments tail

theorem mem_handedSegments {segments : List Segment} : ∀ {again : List UInt8} {segment : Segment},
    segment ∈ handedSegments again segments → ∃ s ∈ segments, s.frame = segment.frame := by
  induction segments with
  | nil =>
      intro again segment hmem
      cases hmem
  | cons first segments ih =>
      intro again segment hmem
      rcases List.mem_cons.mp hmem with rfl | hmem
      · exact ⟨first, List.mem_cons_self .., rfl⟩
      · obtain ⟨s, hs, hframe⟩ := ih hmem
        exact ⟨s, List.mem_cons_of_mem _ hs, hframe⟩

/-- `Receive` turns the bytes of segments into those of the handed segments. -/
theorem repeats_segments (tail : List UInt8) (segments : List Segment) :
    ∀ again : List UInt8, (∀ segment ∈ segments, segment.frame ≠ []) →
      Repeats (Segment.stream (handedSegments again segments) (handedTail again segments tail))
        (segmentFlags (handedSegments again segments) (handedTail again segments tail).length)
        (again ++ Segment.stream segments tail) := by
  induction segments with
  | nil =>
      intro again hne
      have hpasses := Repeats.done.passes (again ++ tail)
      simp only [List.append_nil] at hpasses
      exact hpasses
  | cons segment segments ih =>
      intro again hne
      have hframe := hne segment (List.mem_cons_self ..)
      have hrest := ih segment.lastByte fun s hs => hne s (List.mem_cons_of_mem _ hs)
      obtain ⟨front, last, hsplit⟩ : ∃ front last, segment.frame = front ++ [last] :=
        ⟨_, _, (List.dropLast_append_getLast hframe).symm⟩
      have hlast : segment.lastByte = [last] := by
        rw [Segment.lastByte, hsplit]
        simp
      rw [hlast] at hrest
      have hpasses := (Repeats.again hrest).passes (again ++ segment.noise ++ front)
      rw [handedSegments, handedTail, segmentFlags, Segment.stream_cons, Segment.stream_cons, hlast]
      simp only [Segment.bytes, hsplit, List.append_assoc, List.length_append, List.length_cons,
        List.length_nil, List.singleton_append] at hpasses ⊢
      rwa [show again.length + (segment.noise.length + (front.length + (0 + 1))) - 1 =
        again.length + (segment.noise.length + front.length) by omega]

/-! ## What `Receive` returns -/

/-- The handler takes the frames one after the other, each with a positive answer; the list holds
the state after each. -/
inductive Delivers (h : List UInt8 → Nat → σ → Option (σ × Bool)) :
    List (List UInt8) → σ → List σ → Prop
  | nil (app : σ) : Delivers h [] app []
  | cons {frame frames app app' states} :
      h frame 0 app = some (app', true) → Delivers h frames app' states →
      Delivers h (frame :: frames) app (app' :: states)

theorem answers_of_delivers (tail : Nat) (segments : List Segment) :
    ∀ {app : σ} {states : List σ}, Delivers h (segments.map Segment.frame) app states →
      ∃ results, answers h segments tail app = some results ∧
        results.map Prod.snd = segmentFlags segments tail ∧
        (results.filter Prod.snd).map Prod.fst = states := by
  induction segments with
  | nil =>
      intro app states hdelivers
      cases hdelivers
      refine ⟨_, rfl, by simp [segmentFlags], ?_⟩
      rw [List.filter_replicate_of_neg (by simp)]
      rfl
  | cons segment segments ih =>
      intro app states hdelivers
      rw [List.map_cons] at hdelivers
      cases hdelivers with
      | @cons _ _ _ app' states' hhandle hrest =>
          obtain ⟨results, hanswers, hflags, hstates⟩ := ih hrest
          refine ⟨List.replicate (segment.bytes.length - 1) (app, false) ++ (app', true) :: results,
            ?_, ?_, ?_⟩
          · rw [answers, hhandle, Option.bind_some, hanswers]
            rfl
          · rw [List.map_append, List.map_cons, hflags, List.map_replicate, segmentFlags]
          · rw [List.filter_append, List.filter_replicate_of_neg (by simp), List.nil_append,
              List.filter_cons_of_pos rfl, List.map_cons, hstates]

theorem map_frame_handedSegments (segments : List Segment) : ∀ again : List UInt8,
    (handedSegments again segments).map Segment.frame = segments.map Segment.frame := by
  induction segments with
  | nil => exact fun _ => rfl
  | cons segment segments ih => exact fun again => congrArg (segment.frame :: ·) (ih _)

/-- Repeated calls of `Receive` on serial reads that carry segments return after each frame, in
order, and at no other byte. -/
theorem Receiver.drains_segments (buff recvBuff : ByteMemory) {app : σ} {states : List σ}
    {reads : List (List UInt8)} {segments : List Segment} {tail : List UInt8}
    (hne : ∀ chunk ∈ reads, chunk ≠ []) (hsmall : ∀ chunk ∈ reads, chunk.length ≠ BUFFER_SIZE)
    (hreads : reads.flatten = Segment.stream segments tail)
    (hvalid : ∀ segment ∈ segments, ValidFrame device segment.frame)
    (hclear : Clear device [] (handedSegments [] segments) (handedTail [] segments tail))
    (hdelivers : Delivers h (segments.map Segment.frame) app states) :
    ∃ handed s app', Receiver.Drains device (onFrame h)
      (Receiver.start buff recvBuff app reads) handed states s app' := by
  have hframes : ∀ segment ∈ segments, segment.frame ≠ [] := by
    intro segment hmem hnil
    have := (hvalid segment hmem).header_len
    rw [hnil] at this
    exact absurd this (by decide)
  have hvalid' : ∀ segment ∈ handedSegments [] segments, ValidFrame device segment.frame := by
    intro segment hmem
    obtain ⟨s, hs, hframe⟩ := mem_handedSegments hmem
    exact hframe ▸ hvalid s hs
  rw [← map_frame_handedSegments segments []] at hdelivers
  obtain ⟨results, hanswers, hflags, hstates⟩ :=
    answers_of_delivers (handedTail [] segments tail).length _ hdelivers
  have hfeed := feed_segments (h := h) buff app hvalid' hclear
  rw [hanswers, Option.map_eq_some_iff] at hfeed
  obtain ⟨parsed, hfed, rfl⟩ := hfeed
  have hrepeats := repeats_segments tail segments [] hframes
  rw [List.nil_append, ← hreads] at hrepeats
  obtain ⟨handed, s, app', hhands⟩ := hrepeats.hands 0 hfed (by
    rw [← hflags, List.map_map]
    rfl)
  refine ⟨handed, s, app', ?_⟩
  have hiff := Receiver.drains_iff_hands device (onFrame h)
    (Receiver.start_small buff recvBuff app hne hsmall) handed states s app'
  refine hiff.mpr ?_
  rw [← hstates, List.filter_map, List.map_map]
  exact hhands

end

end RoboRTS.Sdk
