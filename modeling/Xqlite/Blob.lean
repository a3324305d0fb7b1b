import Xqlite.Lib.Logged
import Xqlite.Lib.Runs
import Xqlite.Lib.Slices
import Xqlite.Terms
set_option autoImplicit false

namespace Xqlite.Blob
open Logged Slices Runs

/-- What an open blob handle stands on; SQLite keeps blobs below 2 GiB. -/
structure Content where
  bytes : List UInt8
  fits : bytes.length < 2^31

/-- A slice in the 64-bit address space. -/
structure Data where
  bytes : List UInt8
  fits : bytes.length < 2^64

def Data.len (data : Data) : UInt64 := UInt64.ofNat data.bytes.length

def asCInt (n : UInt64) : Int32 := n.toUInt32.toInt32

def asUsize (n : Int32) : UInt64 := n.toInt64.toUInt64

def saturatingAdd (a b : UInt64) : UInt64 :=
  if a.toNat+b.toNat < 2^64 then a+b else UInt64.ofNat (2^64-1)

/-- SQLite's blob calls with their result codes, and the allocator. A new binary comes
with whatever bytes were in its memory. -/
structure Env where
  blobRead : Content → List UInt8 → Int32 → Int32 → Int × List UInt8
  blobWrite : Content → List UInt8 → Int32 → Int32 → Int × Content
  errmsg : Option String
  alloc : Nat → Bool
  fresh : Nat → List UInt8

/-- Inside the blob SQLite copies exactly the bytes asked for; memory is granted. -/
structure Env.Copies (E : Env) : Prop where
  read : ∀ (content : Content) (buffer : List UInt8) {n offset : Nat} {cLen cOffset : Int32},
    cLen.toInt = n → cOffset.toInt = offset → offset+n ≤ content.bytes.length →
    n ≤ buffer.length →
    E.blobRead content buffer cLen cOffset =
      (Ffi.sqliteOk,content.bytes.extract offset (offset+n) ++ buffer.drop n)
  write : ∀ (content : Content) (data : List UInt8) {n offset : Nat} {cLen cOffset : Int32},
    cLen.toInt = n → cOffset.toInt = offset → offset+n ≤ content.bytes.length →
    n ≤ data.length →
    (E.blobWrite content data cLen cOffset).1 = Ffi.sqliteOk ∧
      (E.blobWrite content data cLen cOffset).2.bytes = splice content.bytes offset (data.take n)
  alloc : ∀ n, E.alloc n = true
  fresh : ∀ n, (E.fresh n).length = n

structure Cast where
  value : UInt64
  arg : Int32
  deriving DecidableEq

abbrev Access (α : Type) := Logged Cast XqliteError α

inductive Handle where
  | connectionClosed | blobClosed | live
  deriving DecidableEq, Repr

/-- `with_live_blob`; `refuse` is the answer to a handle that is not live. -/
def withLiveBlob {ρ : Type} (handle : Handle) (refuse : XqliteError → ρ) (f : ρ) : ρ :=
  match handle with
  | .connectionClosed | .blobClosed => refuse .connectionClosed
  | .live => f

def blobError (E : Env) (rc : Int) : XqliteError :=
  .sqliteFailure rc (some (E.errmsg.getD
    ("SQLite blob operation failed (code " ++ toString rc ++ ")")))

def blobBytes (content : Content) : Int32 := Int32.ofNat content.bytes.length

def size (content : Content) : UInt64 := asUsize (max (blobBytes content) 0)

def actualLen (size offset length : UInt64) : UInt64 :=
  if offset ≥ size then 0 else min length (size-offset)

def toOwnedBinary (E : Env) (bytes : List UInt8) (context : String) : Access (List UInt8) :=
  if E.alloc bytes.length then pure bytes
  else stop (.internalEncodingError ("failed to allocate binary for " ++ context))

/-- The part of `read` that goes to SQLite. -/
def readInto (E : Env) (content : Content) (offset len : UInt64) : Access (List UInt8) :=
  if E.alloc len.toNat then do
    note [⟨len,asCInt len⟩,⟨offset,asCInt offset⟩]
    let (rc,binary) := E.blobRead content (E.fresh len.toNat) (asCInt len) (asCInt offset)
    if rc ≠ Ffi.sqliteOk then stop (blobError E rc) else pure binary
  else stop (.internalEncodingError "failed to allocate binary for blob read")

def read (E : Env) (handle : Handle) (content : Content) (offset length : UInt64) :
    Access (List UInt8) :=
  withLiveBlob handle stop
    (if actualLen (size content) offset length = 0 then toOwnedBinary E [] "blob read"
     else readInto E content offset (actualLen (size content) offset length))

def write (E : Env) (handle : Handle) (content : Content) (offset : UInt64) (data : Data) :
    Content × Access Unit :=
  withLiveBlob handle (fun e => (content,stop e))
    (if saturatingAdd data.len offset > size content then
      (content,stop (.cannotExecute "Blob size is insufficient"))
    else
      let (rc,written) := E.blobWrite content data.bytes (asCInt data.len) (asCInt offset)
      (written,do
        note [⟨data.len,asCInt data.len⟩,⟨offset,asCInt offset⟩]
        if rc ≠ Ffi.sqliteOk then stop (blobError E rc) else pure ()))

section Arithmetic

theorem toInt_asCInt {n : UInt64} (h : n.toNat < 2^31) : (asCInt n).toInt = n.toNat := by
  have hlow : n.toUInt32.toBitVec.toNat = n.toNat := by
    have hmod := UInt64.toNat_toUInt32 n
    change n.toUInt32.toBitVec.toNat = _ at hmod
    omega
  have hsigned : n.toUInt32.toBitVec.toInt = n.toUInt32.toBitVec.toNat :=
    BitVec.toInt_eq_toNat_of_lt (by omega)
  exact hsigned.trans (congrArg _ hlow)

theorem toNat_asUsize {n : Int32} {k : Nat} (h : n.toInt = k) : (asUsize n).toNat = k := by
  have hwide : n.toInt64.toBitVec.toInt = k := (Int32.toInt_toInt64 n).trans h
  have hcond := BitVec.toInt_eq_toNat_cond n.toInt64.toBitVec
  have hlt := n.toInt64.toBitVec.isLt
  change n.toInt64.toBitVec.toNat = k
  split_ifs at hcond <;> omega

theorem toNat_size (content : Content) : (size content).toNat = content.bytes.length := by
  have hbytes : (blobBytes content).toInt = content.bytes.length :=
    Int32.toInt_ofNat_of_lt content.fits
  have hmax : max (blobBytes content) 0 = blobBytes content := by
    have hzero : (0 : Int32).toInt = 0 := rfl
    change (if blobBytes content ≤ 0 then 0 else blobBytes content) = _
    split_ifs with hle
    · rw [Int32.le_iff_toInt_le] at hle
      exact Int32.toInt_inj.mp (by omega)
    · rfl
  rw [size,hmax]
  exact toNat_asUsize hbytes

theorem toNat_len (data : Data) : data.len.toNat = data.bytes.length :=
  UInt64.toNat_ofNat_of_lt' data.fits

theorem toNat_actualLen (content : Content) (offset length : UInt64) :
    (actualLen (size content) offset length).toNat =
      min length.toNat (content.bytes.length-offset.toNat) := by
  have hsize := toNat_size content
  unfold actualLen
  split_ifs with hge
  · have hle : (size content).toNat ≤ offset.toNat := UInt64.le_iff_toNat_le.mp hge
    rw [UInt64.toNat_zero]
    omega
  · have hlt : offset ≤ size content := UInt64.le_iff_toNat_le.mpr (by
      have hnot := mt UInt64.le_iff_toNat_le.mpr hge
      omega)
    rw [UInt64.toNat_min,UInt64.toNat_sub_of_le _ _ hlt,hsize]

theorem saturatingAdd_gt (content : Content) (offset : UInt64) (data : Data) :
    saturatingAdd data.len offset > size content ↔
      content.bytes.length < offset.toNat+data.bytes.length := by
  have hsize := toNat_size content
  have hlen := toNat_len data
  have hfits := content.fits
  rw [gt_iff_lt,UInt64.lt_iff_toNat_lt,hsize]
  unfold saturatingAdd
  split_ifs with hsum
  · rw [UInt64.toNat_add,Nat.mod_eq_of_lt hsum,hlen,Nat.add_comm]
  · have htop : (UInt64.ofNat (2^64-1)).toNat = 2^64-1 := by decide
    rw [htop]
    omega

end Arithmetic

section Access
variable {E : Env} {content : Content}

/-- Every C int handed to SQLite is the value it was cast from. -/
def CastsExactly {α : Type} (x : Access α) : Prop := ∀ c ∈ x.log, c.arg.toInt = c.value.toNat

theorem casts_exactly {len offset : UInt64} (hlen : len.toNat < 2^31) (hoffset : offset.toNat < 2^31) :
    ∀ c ∈ [Cast.mk len (asCInt len),Cast.mk offset (asCInt offset)],
      c.arg.toInt = c.value.toNat := by
  intro c hc
  rcases List.mem_pair.mp hc with rfl | rfl
  · exact toInt_asCInt hlen
  · exact toInt_asCInt hoffset

theorem actualLen_inside {offset length : UInt64}
    (h : actualLen (size content) offset length ≠ 0) :
    offset.toNat+(actualLen (size content) offset length).toNat ≤ content.bytes.length := by
  have hlen := toNat_actualLen content offset length
  have hpos : (actualLen (size content) offset length).toNat ≠ 0 :=
    fun heq => h (UInt64.toNat_inj.mp heq)
  omega

theorem read_castsExactly (E : Env) (content : Content) (offset length : UInt64) :
    CastsExactly (read E .live content offset length) := by
  have hfits := content.fits
  simp only [CastsExactly,read,withLiveBlob]
  split_ifs with hempty
  · unfold toOwnedBinary
    split_ifs <;> exact fun c hc => absurd hc List.not_mem_nil
  · have hinside := actualLen_inside hempty
    unfold readInto
    split_ifs
    · rw [note_bind]
      dsimp only
      split_ifs <;>
        exact casts_exactly (by omega) (by omega)
    · exact fun c hc => absurd hc List.not_mem_nil

theorem readInto_out (h : E.Copies) {offset len : UInt64}
    (hinside : offset.toNat+len.toNat ≤ content.bytes.length) :
    (readInto E content offset len).out =
      .ok (content.bytes.extract offset.toNat (offset.toNat+len.toNat)) := by
  have hfits := content.fits
  have hread := h.read content (E.fresh len.toNat) (toInt_asCInt (by omega))
    (toInt_asCInt (by omega)) hinside (Nat.le_of_eq (h.fresh len.toNat).symm)
  have hfilled : (E.fresh len.toNat).drop len.toNat = [] :=
    List.drop_eq_nil_of_le (Nat.le_of_eq (h.fresh len.toNat))
  simp only [readInto,h.alloc,if_true,hread,hfilled,List.append_nil,note_bind]
  rfl

theorem read_out (h : E.Copies) (offset length : UInt64) :
    (read E .live content offset length).out = .ok (content.bytes.extract offset.toNat
      (min (offset.toNat+length.toNat) content.bytes.length)) := by
  have hlen := toNat_actualLen content offset length
  simp only [read,withLiveBlob]
  split_ifs with hempty
  · rw [hempty,UInt64.toNat_zero] at hlen
    rw [extract_eq_nil (by omega),toOwnedBinary,h.alloc,if_pos rfl]
    rfl
  · have hinside := actualLen_inside hempty
    have hstop : offset.toNat+(actualLen (size content) offset length).toNat =
        min (offset.toNat+length.toNat) content.bytes.length := by omega
    rw [readInto_out h hinside,hstop]

theorem write_outside (E : Env) {offset : UInt64} {data : Data}
    (h : content.bytes.length < offset.toNat+data.bytes.length) :
    write E .live content offset data =
      (content,stop (.cannotExecute "Blob size is insufficient")) := by
  rw [write,withLiveBlob,if_pos ((saturatingAdd_gt content offset data).mpr h)]

theorem write_inside (h : E.Copies) {offset : UInt64} {data : Data}
    (hinside : offset.toNat+data.bytes.length ≤ content.bytes.length) :
    (write E .live content offset data).1.bytes = splice content.bytes offset.toNat data.bytes ∧
    (write E .live content offset data).2.out = .ok () ∧
    CastsExactly (write E .live content offset data).2 := by
  have hfits := content.fits
  have hlen := toNat_len data
  have hnot : ¬ saturatingAdd data.len offset > size content :=
    fun hgt => absurd ((saturatingAdd_gt content offset data).mp hgt) (by omega)
  obtain ⟨hrc,hwritten⟩ := h.write content data.bytes
    (toInt_asCInt (n := data.len) (by omega)) (toInt_asCInt (n := offset) (by omega))
    (by omega) (by omega)
  rw [hlen,List.take_length] at hwritten
  simp only [write,withLiveBlob,if_neg hnot,hrc]
  exact ⟨hwritten,rfl,casts_exactly (by omega) (by omega)⟩

section Written
variable {offset : UInt64} {data : Data}

theorem length_written (h : E.Copies)
    (hinside : offset.toNat+data.bytes.length ≤ content.bytes.length) :
    (write E .live content offset data).1.bytes.length = content.bytes.length := by
  rw [(write_inside h hinside).1]
  exact length_splice hinside

theorem read_written (h : E.Copies)
    (hinside : offset.toNat+data.bytes.length ≤ content.bytes.length) :
    (read E .live (write E .live content offset data).1 offset data.len).out =
      .ok data.bytes := by
  have hstop : min (offset.toNat+data.len.toNat) content.bytes.length =
      offset.toNat+data.bytes.length := by
    rw [toNat_len]
    exact Nat.min_eq_left hinside
  rw [read_out h,length_written h hinside,hstop,(write_inside h hinside).1,
    extract_splice_self hinside]

theorem read_elsewhere (h : E.Copies)
    (hinside : offset.toNat+data.bytes.length ≤ content.bytes.length) {start length : UInt64}
    (hdisjoint : min (start.toNat+length.toNat) content.bytes.length ≤ offset.toNat ∨
      offset.toNat+data.bytes.length ≤ start.toNat) :
    (read E .live (write E .live content offset data).1 start length).out =
      (read E .live content start length).out := by
  rw [read_out h,read_out h,length_written h hinside,(write_inside h hinside).1,
    extract_splice_disjoint hinside hdisjoint]

end Written

end Access

/-- Reads and writes are those of a list of bytes with natural numbers for offsets. -/
theorem blob_read_write {E : Env} (h : E.Copies) (content : Content) (offset : UInt64) :
    (∀ length : UInt64, CastsExactly (read E .live content offset length) ∧
      (read E .live content offset length).out = .ok (content.bytes.extract offset.toNat
        (min (offset.toNat+length.toNat) content.bytes.length))) ∧
    ∀ data : Data,
      let result := write E .live content offset data
      CastsExactly result.2 ∧
      ((∃ e, result.2.out = .error e) ↔ content.bytes.length < offset.toNat+data.bytes.length) ∧
      (content.bytes.length < offset.toNat+data.bytes.length → result.1 = content) ∧
      (offset.toNat+data.bytes.length ≤ content.bytes.length → result.2.out = .ok () ∧
        result.1.bytes = splice content.bytes offset.toNat data.bytes ∧
        result.1.bytes.length = content.bytes.length ∧
        (read E .live result.1 offset data.len).out = .ok data.bytes ∧
        ∀ start length : UInt64,
          (min (start.toNat+length.toNat) content.bytes.length ≤ offset.toNat ∨
            offset.toNat+data.bytes.length ≤ start.toNat) →
          (read E .live result.1 start length).out =
            (read E .live content start length).out) := by
  refine ⟨fun length => ⟨read_castsExactly E content offset length,read_out h offset length⟩,?_⟩
  intro data result
  by_cases hinside : offset.toNat+data.bytes.length ≤ content.bytes.length
  · obtain ⟨hwritten,hout,hcasts⟩ := write_inside h hinside
    refine ⟨hcasts,?_,fun hlt => absurd hlt (Nat.not_lt.mpr hinside),fun _ =>
      ⟨hout,hwritten,length_written h hinside,read_written h hinside,?_⟩⟩
    · refine iff_of_false ?_ (Nat.not_lt.mpr hinside)
      rintro ⟨e,he⟩
      rw [hout] at he
      cases he
    · intro start length hdisjoint
      exact read_elsewhere h hinside hdisjoint
  · have hlt := Nat.lt_of_not_le hinside
    have hresult : result = (content,stop (.cannotExecute "Blob size is insufficient")) :=
      write_outside E hlt
    refine ⟨?_,iff_of_true ?_ hlt,fun _ => ?_,fun hle => absurd hle hinside⟩
    · rw [hresult]
      exact fun c hc => absurd hc List.not_mem_nil
    · rw [hresult]
      exact ⟨_,rfl⟩
    · rw [hresult]

section Runs

inductive Op where
  | read (offset length : UInt64)
  | write (offset : UInt64) (data : Data)

inductive Reply where
  | read (out : Outcome XqliteError (List UInt8))
  | written (out : Outcome XqliteError Unit)

def perform (E : Env) (content : Content) : Op → Content × Reply
  | .read offset length => (content,.read (read E .live content offset length).out)
  | .write offset data =>
    ((write E .live content offset data).1,.written (write E .live content offset data).2.out)

inductive Answer where
  | bytes (bytes : List UInt8)
  | done
  | refused

def performBytes (bytes : List UInt8) : Op → List UInt8 × Answer
  | .read offset length =>
    (bytes,.bytes (bytes.extract offset.toNat (min (offset.toNat+length.toNat) bytes.length)))
  | .write offset data =>
    if offset.toNat+data.bytes.length ≤ bytes.length then
      (splice bytes offset.toNat data.bytes,.done)
    else (bytes,.refused)

def Agrees : Reply → Answer → Prop
  | .read out,.bytes bytes => out = .ok bytes
  | .written out,.done => out = .ok ()
  | .written out,.refused => ∃ e, out = .error e
  | _,_ => False

theorem perform_refines {E : Env} (h : E.Copies) (content : Content) (op : Op) :
    (perform E content op).1.bytes = (performBytes content.bytes op).1 ∧
      Agrees (perform E content op).2 (performBytes content.bytes op).2 := by
  cases op with
  | read offset length => exact ⟨rfl,read_out h offset length⟩
  | write offset data =>
    simp only [perform,performBytes]
    split_ifs with hinside
    · obtain ⟨hwritten,hout,-⟩ := write_inside h hinside
      exact ⟨hwritten,hout⟩
    · rw [write_outside E (Nat.lt_of_not_le hinside)]
      exact ⟨rfl,_,rfl⟩

/-- Every run of reads and writes through a handle is a run on the bytes themselves. -/
theorem run_refines {E : Env} (h : E.Copies) (content : Content) (ops : List Op) :
    (run (perform E) content ops).1.bytes = (run performBytes content.bytes ops).1 ∧
      List.Forall₂ Agrees (run (perform E) content ops).2 (run performBytes content.bytes ops).2 := by
  refine run_simulates (R := fun (c : Content) l => c.bytes = l) (O := Agrees) ?_ rfl ops
  intro content bytes op hbytes
  subst hbytes
  exact perform_refines h content op

end Runs

section Example

def inside (content : Content) (cLen cOffset : Int32) : Bool :=
  0 ≤ cLen.toInt && 0 ≤ cOffset.toInt && cOffset.toInt+cLen.toInt ≤ content.bytes.length

theorem splice_fits {content : Content} {data : List UInt8} {offset : Nat}
    (h : offset+data.length ≤ content.bytes.length) :
    (splice content.bytes offset data).length < 2^31 := by
  rw [length_splice h]
  exact content.fits

def copyingEnv : Env where
  blobRead := fun content buffer cLen cOffset =>
    if inside content cLen cOffset then
      (Ffi.sqliteOk,content.bytes.extract cOffset.toInt.toNat
        (cOffset.toInt.toNat+cLen.toInt.toNat) ++ buffer.drop cLen.toInt.toNat)
    else (1,buffer)
  blobWrite := fun content data cLen cOffset =>
    if h : cOffset.toInt.toNat+(data.take cLen.toInt.toNat).length ≤ content.bytes.length then
      (Ffi.sqliteOk,⟨_,splice_fits h⟩)
    else (1,content)
  errmsg := none
  alloc := fun _ => true
  fresh := fun n => List.replicate n 255

theorem copyingEnv_copies : copyingEnv.Copies where
  read := by
    intro content buffer n offset cLen cOffset hn hoffset hinside _
    have hin : inside content cLen cOffset = true := by
      simp only [inside,hn,hoffset,Bool.and_eq_true,decide_eq_true_eq]
      omega
    simp only [copyingEnv,hin,if_true,hn,hoffset,Int.toNat_natCast]
  write := by
    intro content data n offset cLen cOffset hn hoffset hinside hdata
    have hin : offset+(data.take n).length ≤ content.bytes.length := by
      rw [List.length_take_of_le hdata]
      exact hinside
    simp only [copyingEnv,hn,hoffset,Int.toNat_natCast,dif_pos hin,and_self]
  alloc := fun _ => rfl
  fresh := fun _ => List.length_replicate

/-- An offset near the end of the 64-bit range wraps nowhere. -/
theorem blob_read_write_far :
    (read copyingEnv .live ⟨[1,2,3],by decide⟩ 18446744073709551615 2).out = .ok [] ∧
    (write copyingEnv .live ⟨[1,2,3],by decide⟩ 18446744073709551615 ⟨[7,7],by decide⟩).1.bytes =
      [1,2,3] := by
  obtain ⟨hread,hwrite⟩ :=
    blob_read_write copyingEnv_copies ⟨[1,2,3],by decide⟩ 18446744073709551615
  refine ⟨(hread 2).2,?_⟩
  rw [(hwrite ⟨[7,7],by decide⟩).2.2.1 (by decide)]

end Example

end Xqlite.Blob
