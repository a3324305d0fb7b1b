import Mathlib.Data.Finmap
import Xqlite.StreamFetch
set_option autoImplicit false

namespace Xqlite.Stream

abbrev RowMap := Finmap (fun _ : String => Term)

/-- `Map.new` over pairs: a later pair replaces an earlier one with its key. -/
def mapNew (pairs : List (String × Term)) : RowMap :=
  pairs.foldl (fun m p => m.insert p.1 p.2) ∅

abbrev TypeExtension := Term → Option Term

def decodeValue (value : Term) : List TypeExtension → Term
  | [] => value
  | ext :: rest => (ext value).getD (decodeValue value rest)

def decodeRows (rows : List (List Term)) (extensions : List TypeExtension) : List (List Term) :=
  match extensions with
  | [] => rows
  | _ => rows.map (fun row => row.map (fun value => decodeValue value extensions))

def mapRowsToMaps (rows : List (List Term)) (columns : List String)
    (typeExtensions : List TypeExtension) : List RowMap :=
  (decodeRows rows typeExtensions).map (fun row => mapNew (columns.zip row))

inductive OnError where
  | raise | halt | emitError
  deriving DecidableEq, Repr

inductive Element where
  | bare (row : RowMap)
  | ok (row : RowMap)
  | error (reason : FetchError)

structure Opts where
  batchSize : Term := .int 500
  typeExtensions : List TypeExtension := []
  onError : Term := .atom "raise"

structure Acc where
  handle : XqliteStream
  columns : List String
  batchSize : Term
  typeExtensions : List TypeExtension
  rowsTotal : Nat
  onError : OnError
  errored : Bool

inductive OpenError where
  | invalidOnError (other : Term)
  | xqlite (reason : XqliteError)

def validateOnError (opts : Opts) : Except OpenError OnError :=
  match opts.onError with
  | .atom "raise" => .ok .raise
  | .atom "halt" => .ok .halt
  | .atom "emit_error" => .ok .emitError
  | other => .error (.invalidOnError other)

def buildAcc (handle : XqliteStream) (columns : List String) (opts : Opts) (onError : OnError) :
    Acc :=
  ⟨handle,columns,opts.batchSize,opts.typeExtensions,0,onError,false⟩

/-- `opened` is what `stream_open` answers for the query. -/
def startFun (opened : Except XqliteError XqliteStream) (opts : Opts) : Except OpenError Acc :=
  match validateOnError opts with
  | .error reason => .error reason
  | .ok onError =>
    match opened with
    | .error reason => .error (.xqlite reason)
    | .ok handle => .ok (buildAcc handle handle.columnNames opts onError)

def shapeRows (mappedRows : List RowMap) : OnError → List Element
  | .emitError => mappedRows.map .ok
  | _ => mappedRows.map .bare

inductive Next where
  | emit (elements : List Element) (acc : Acc)
  | halt (acc : Acc)
  | raise (reason : FetchError) (acc : Acc)

def handleFetchError (reason : FetchError) (acc : Acc) : Next :=
  match acc.onError with
  | .raise => .raise reason acc
  | .halt => .halt acc
  | .emitError => .emit [.error reason] { acc with errored := true }

def nextFun (acc : Acc) : Next :=
  if acc.onError = .emitError ∧ acc.errored = true then .halt acc
  else
    match streamFetch acc.handle acc.batchSize with
    | (handle,.rows rows) =>
        let mappedRows := mapRowsToMaps rows acc.columns acc.typeExtensions
        .emit (shapeRows mappedRows acc.onError)
          { acc with handle, rowsTotal := acc.rowsTotal + mappedRows.length }
    | (handle,.done) => .halt { acc with handle }
    | (handle,.error reason) => handleFetchError reason { acc with handle }

def afterFun (acc : Acc) : Acc := { acc with handle := acc.handle.takeAndFinalize }

structure Enumeration where
  elements : List Element
  raised : Option FetchError
  acc : Acc

/-- `Stream.resource` under a consumer that takes everything, for at most `fuel`
calls of the next function. -/
def enumerate : Nat → Acc → Option Enumeration
  | 0, _ => none
  | fuel+1, acc =>
    match nextFun acc with
    | .emit elements acc' =>
        (enumerate fuel acc').map (fun r => { r with elements := elements ++ r.elements })
    | .halt acc' => some ⟨[],none,afterFun acc'⟩
    | .raise reason acc' => some ⟨[],some reason,afterFun acc'⟩

def Enumerates (acc : Acc) (r : Enumeration) : Prop :=
  ∃ n, ∀ fuel, n ≤ fuel → enumerate fuel acc = some r

theorem enumerates_unique {acc : Acc} {r t : Enumeration} (hr : Enumerates acc r)
    (ht : Enumerates acc t) : r = t := by
  obtain ⟨n,hn⟩ := hr
  obtain ⟨m,hm⟩ := ht
  have hboth := (hn (max n m) (by omega)).symm.trans (hm (max n m) (by omega))
  exact Option.some.inj hboth

theorem enumerates_emit {acc acc' : Acc} {elements : List Element} {r : Enumeration}
    (h : nextFun acc = .emit elements acc') (hr : Enumerates acc' r) :
    Enumerates acc { r with elements := elements ++ r.elements } := by
  obtain ⟨n,hn⟩ := hr
  refine ⟨n+1,?_⟩
  intro fuel hfuel
  obtain ⟨m,rfl⟩ : ∃ m, fuel = m+1 := ⟨fuel-1,by omega⟩
  simp [enumerate,h,hn m (by omega)]

theorem enumerates_halt {acc acc' : Acc} (h : nextFun acc = .halt acc') :
    Enumerates acc ⟨[],none,afterFun acc'⟩ := by
  refine ⟨1,?_⟩
  intro fuel hfuel
  obtain ⟨m,rfl⟩ : ∃ m, fuel = m+1 := ⟨fuel-1,by omega⟩
  simp [enumerate,h]

theorem enumerates_raise {acc acc' : Acc} {reason : FetchError}
    (h : nextFun acc = .raise reason acc') :
    Enumerates acc ⟨[],some reason,afterFun acc'⟩ := by
  refine ⟨1,?_⟩
  intro fuel hfuel
  obtain ⟨m,rfl⟩ : ∃ m, fuel = m+1 := ⟨fuel-1,by omega⟩
  simp [enumerate,h]

section Enumerating

/-- The rows a consumer gets to see: the batch in which a fetch fails is lost. -/
def seenRows (b : Nat) (rest : List (List Term)) : Ending → List (List Term)
  | .ok () => rest
  | .error _ => rest.take (rest.length / b * b)

def lastElements (onError : OnError) : Ending → List Element
  | .ok () => []
  | .error e => if onError = .emitError then [.error (.xqlite e)] else []

def lastRaise (onError : OnError) : Ending → Option FetchError
  | .ok () => none
  | .error e => if onError = .raise then some (.xqlite e) else none

theorem seenRows_within {b : Nat} {rest : List (List Term)} (hb : 1 ≤ b)
    (hfit : b ≤ rest.length) (last : Ending) :
    rest.take b ++ seenRows b (rest.drop b) last = seenRows b rest last := by
  cases last with
  | ok _ => exact List.take_append_drop b rest
  | error e =>
    have hlen : rest.length / b * b = b + (rest.length - b) / b * b := by
      rw [Nat.div_eq_sub_div hb hfit,Nat.succ_mul,Nat.add_comm]
    simp only [seenRows,List.length_drop,hlen]
    rw [List.take_add]

theorem seenRows_beyond {b : Nat} {rest : List (List Term)} (hlt : rest.length < b)
    (e : XqliteError) : seenRows b rest (.error e) = [] := by
  simp [seenRows,Nat.div_eq_of_lt hlt]

theorem decodeRows_append (rows more : List (List Term)) (exts : List TypeExtension) :
    decodeRows (rows ++ more) exts = decodeRows rows exts ++ decodeRows more exts := by
  cases exts <;> simp [decodeRows]

theorem mapRowsToMaps_append (rows more : List (List Term)) (columns : List String)
    (exts : List TypeExtension) :
    mapRowsToMaps (rows ++ more) columns exts =
      mapRowsToMaps rows columns exts ++ mapRowsToMaps more columns exts := by
  simp [mapRowsToMaps,decodeRows_append]

theorem shapeRows_append (maps more : List RowMap) (onError : OnError) :
    shapeRows (maps ++ more) onError = shapeRows maps onError ++ shapeRows more onError := by
  cases onError <;> simp [shapeRows]

@[simp] theorem mapRowsToMaps_nil (columns : List String) (exts : List TypeExtension) :
    mapRowsToMaps [] columns exts = [] := by
  cases exts <;> rfl

@[simp] theorem shapeRows_nil (onError : OnError) : shapeRows [] onError = [] := by
  cases onError <;> rfl

def Shows (acc : Acc) (rows : List (List Term)) (last : Ending) : Prop :=
  ∃ acc', Enumerates acc
    ⟨shapeRows (mapRowsToMaps rows acc.columns acc.typeExtensions) acc.onError ++
      lastElements acc.onError last,lastRaise acc.onError last,acc'⟩

def Acc.fetched (acc : Acc) (handle : XqliteStream) (rows : List (List Term)) : Acc :=
  { acc with
    handle
    rowsTotal := acc.rowsTotal + (mapRowsToMaps rows acc.columns acc.typeExtensions).length }

theorem nextFun_fetch {acc : Acc} (hfresh : acc.errored = false) :
    nextFun acc =
      match streamFetch acc.handle acc.batchSize with
      | (handle,.rows rows) =>
          .emit (shapeRows (mapRowsToMaps rows acc.columns acc.typeExtensions) acc.onError)
            (acc.fetched handle rows)
      | (handle,.done) => .halt { acc with handle }
      | (handle,.error reason) => handleFetchError reason { acc with handle } := by
  simp [nextFun,hfresh,Acc.fetched]

theorem shows_rows {acc : Acc} {handle : XqliteStream} {rows more : List (List Term)}
    {last : Ending} (hfresh : acc.errored = false)
    (hfetch : streamFetch acc.handle acc.batchSize = (handle,.rows rows))
    (h : Shows (acc.fetched handle rows) more last) : Shows acc (rows ++ more) last := by
  obtain ⟨acc',hend⟩ := h
  have hnext : nextFun acc =
      .emit (shapeRows (mapRowsToMaps rows acc.columns acc.typeExtensions) acc.onError)
        (acc.fetched handle rows) := by
    rw [nextFun_fetch hfresh,hfetch]
  have hall := enumerates_emit hnext hend
  refine ⟨acc',?_⟩
  rw [mapRowsToMaps_append,shapeRows_append,List.append_assoc]
  exact hall

theorem shows_done {acc : Acc} {handle : XqliteStream} (hfresh : acc.errored = false)
    (hfetch : streamFetch acc.handle acc.batchSize = (handle,.done)) :
    Shows acc [] (.ok ()) := by
  have hnext : nextFun acc = .halt { acc with handle } := by
    rw [nextFun_fetch hfresh,hfetch]
  have hend := enumerates_halt hnext
  exact ⟨_,by simpa [lastElements,lastRaise] using hend⟩

theorem shows_failed {acc : Acc} {handle : XqliteStream} {e : XqliteError}
    (hfresh : acc.errored = false)
    (hfetch : streamFetch acc.handle acc.batchSize = (handle,.error (.xqlite e))) :
    Shows acc [] (.error e) := by
  have hnext : nextFun acc = handleFetchError (.xqlite e) { acc with handle } := by
    rw [nextFun_fetch hfresh,hfetch]
  let failed : Acc := { acc with handle, errored := true }
  cases hmode : acc.onError with
  | raise =>
    have hraise : nextFun acc = .raise (.xqlite e) { acc with handle } := by
      rw [hnext]
      simp [handleFetchError,hmode]
    have hend := enumerates_raise hraise
    exact ⟨_,by simpa [lastElements,lastRaise,hmode] using hend⟩
  | halt =>
    have hhalt : nextFun acc = .halt { acc with handle } := by
      rw [hnext]
      simp [handleFetchError,hmode]
    have hend := enumerates_halt hhalt
    exact ⟨_,by simpa [lastElements,lastRaise,hmode] using hend⟩
  | emitError =>
    have hemit : nextFun acc = .emit [.error (.xqlite e)] failed := by
      rw [hnext]
      simp [handleFetchError,hmode,failed]
    have hstop : Enumerates failed ⟨[],none,afterFun failed⟩ :=
      enumerates_halt (by simp [nextFun,failed,hmode])
    have hend := enumerates_emit hemit hstop
    exact ⟨_,by simpa [lastElements,lastRaise,hmode] using hend⟩

theorem shows_beyond {script : List StepResult} {b : Nat} {last : Ending}
    {rest : List (List Term)} {acc : Acc} (hfresh : acc.errored = false)
    (hb : batchSize acc.batchSize = some b) (h : Serving script acc.handle rest last)
    (hlt : rest.length < b) : Shows acc (seenRows b rest last) last := by
  obtain ⟨s',hfetch,hspent⟩ := fetchBatch_beyond h hlt
  rw [← streamFetch_valid hb] at hfetch
  cases last with
  | error e =>
    rw [seenRows_beyond hlt]
    exact shows_failed hfresh hfetch
  | ok u =>
    by_cases hrest : rest = []
    · rw [lastReply,if_pos hrest] at hfetch
      rw [hrest]
      exact shows_done hfresh hfetch
    · rw [lastReply,if_neg hrest] at hfetch
      have hdone : streamFetch (acc.fetched s' rest).handle (acc.fetched s' rest).batchSize =
          (s',.done) := (streamFetch_valid hb s').trans (fetchBatch_spent hspent b)
      have hall := shows_rows hfresh hfetch (shows_done hfresh hdone)
      rw [List.append_nil] at hall
      exact hall

/-- An enumeration shows every row that came in a batch that did not fail. -/
theorem shows_serving {script : List StepResult} {b : Nat} {last : Ending} (n : Nat)
    {rest : List (List Term)} {acc : Acc} (hn : rest.length ≤ n)
    (hfresh : acc.errored = false) (hb : batchSize acc.batchSize = some b)
    (h : Serving script acc.handle rest last) : Shows acc (seenRows b rest last) last := by
  have hpos := batchSize_pos hb
  -- Every batch that fits shortens what is left.
  induction n generalizing rest acc with
  | zero => exact shows_beyond hfresh hb h (by omega)
  | succ n ih =>
    by_cases hfit : b ≤ rest.length
    · obtain ⟨s',hfetch,hs'⟩ := fetchBatch_within h hpos hfit
      rw [← streamFetch_valid hb] at hfetch
      have hlen : (rest.drop b).length ≤ n := by
        rw [List.length_drop]
        omega
      rw [← seenRows_within hpos hfit]
      exact shows_rows hfresh hfetch (ih hlen hfresh hb hs')
    · exact shows_beyond hfresh hb h (by omega)

end Enumerating

/-- `Xqlite.stream` over a query whose execution follows `script`, enumerated. -/
def Streamed (columns : List String) (script : List StepResult) (opts : Opts)
    (r : Enumeration) : Prop :=
  ∃ acc, startFun (.ok (.opened columns script)) opts = .ok acc ∧ Enumerates acc r

theorem streamed_unique {columns : List String} {script : List StepResult} {opts : Opts}
    {r t : Enumeration} (hr : Streamed columns script opts r)
    (ht : Streamed columns script opts t) : r = t := by
  obtain ⟨acc,hacc,hr⟩ := hr
  obtain ⟨acc',hacc',ht⟩ := ht
  cases hacc.symm.trans hacc'
  exact enumerates_unique hr ht

theorem startFun_ok {opts : Opts} {onError : OnError} (h : validateOnError opts = .ok onError)
    (handle : XqliteStream) :
    startFun (.ok handle) opts = .ok (buildAcc handle handle.columnNames opts onError) := by
  simp [startFun,h]

theorem streamed_shows (columns : List String) {script : List StepResult}
    {rows : List (List Term)} {last : Ending} {opts : Opts} {onError : OnError} {b : Nat}
    (h : Executes script rows last) (hmode : validateOnError opts = .ok onError)
    (hb : batchSize opts.batchSize = some b) :
    ∃ acc, Streamed columns script opts
      ⟨shapeRows (mapRowsToMaps (seenRows b rows last) columns opts.typeExtensions) onError ++
        lastElements onError last,lastRaise onError last,acc⟩ := by
  let acc := buildAcc (.opened columns script) columns opts onError
  have hserving : Serving script acc.handle rows last := opened_serving h columns
  obtain ⟨acc',hend⟩ := shows_serving rows.length (Nat.le_refl _) rfl hb hserving
  exact ⟨acc',acc,startFun_ok hmode _,hend⟩

section EmitError

def taggedElements (columns : List String) (exts : List TypeExtension)
    (rows : List (List Term)) (e : XqliteError) : List Element :=
  (mapRowsToMaps rows columns exts).map .ok ++ [.error (.xqlite e)]

theorem mapRowsToMaps_length (rows : List (List Term)) (columns : List String)
    (exts : List TypeExtension) : (mapRowsToMaps rows columns exts).length = rows.length := by
  cases exts <;> simp [mapRowsToMaps,decodeRows]

theorem batchSize_ofNat {b : Nat} (hb : 1 ≤ b) :
    batchSize (.int b) = if b < 2^63 then some b else none := by
  by_cases htop : b < 2^63
  · have hrange : (1 : Int) ≤ b ∧ (b : Int) < 2^63 := by omega
    rw [batchSize,if_pos hrange,if_pos htop,Int.toNat_natCast]
  · have hrange : ¬ ((1 : Int) ≤ b ∧ (b : Int) < 2^63) := by omega
    rw [batchSize,if_neg hrange,if_neg htop]

def emitErrorOpts (exts : List TypeExtension) (b : Nat) : Opts :=
  { batchSize := .int b, typeExtensions := exts, onError := .atom "emit_error" }

theorem emitError_shows {script : List StepResult} {rows : List (List Term)}
    {e : XqliteError} (h : Executes script rows (.error e)) (columns : List String)
    (exts : List TypeExtension) {b : Nat} (hb : 1 ≤ b) (htop : b < 2^63) :
    ∃ acc, Streamed columns script (emitErrorOpts exts b)
      ⟨taggedElements columns exts (rows.take (rows.length / b * b)) e,none,acc⟩ := by
  have hsize : batchSize (.int b) = some b := by rw [batchSize_ofNat hb,if_pos htop]
  have hmode : validateOnError (emitErrorOpts exts b) = .ok .emitError := rfl
  exact streamed_shows columns h hmode hsize

theorem emitError_invalid (columns : List String) (script : List StepResult)
    (exts : List TypeExtension) {b : Nat} (hb : 1 ≤ b) (htop : ¬ b < 2^63) :
    ∃ acc, Streamed columns script (emitErrorOpts exts b)
      ⟨[.error (.invalidBatchSize (taggedElixirValue (.int b)) 1)],none,acc⟩ := by
  have hsize : batchSize (.int b) = none := by rw [batchSize_ofNat hb,if_neg htop]
  let acc := buildAcc (.opened columns script) columns (emitErrorOpts exts b) .emitError
  have hfetch : streamFetch acc.handle acc.batchSize =
      (acc.handle,.error (.invalidBatchSize (taggedElixirValue (.int b)) 1)) :=
    streamFetch_invalid hsize acc.handle
  have hnext : nextFun acc = .emit
      [.error (.invalidBatchSize (taggedElixirValue (.int b)) 1)] { acc with errored := true } := by
    rw [nextFun_fetch rfl,hfetch]
    rfl
  have hstop : Enumerates { acc with errored := true }
      ⟨[],none,afterFun { acc with errored := true }⟩ := enumerates_halt rfl
  exact ⟨_,acc,rfl,enumerates_emit hnext hstop⟩

/-- The rows before a failing one all reach the consumer exactly when the failing
row is the first of its batch. -/
theorem emit_error_yields_every_row_iff {script : List StepResult} {rows : List (List Term)}
    {e : XqliteError} (h : Executes script rows (.error e)) (columns : List String)
    (exts : List TypeExtension) {b : Nat} (hb : 1 ≤ b) :
    (∃ r, Streamed columns script (emitErrorOpts exts b) r ∧
      r.elements = taggedElements columns exts rows e ∧ r.raised = none) ↔
    b < 2^63 ∧ b ∣ rows.length := by
  by_cases htop : b < 2^63
  · obtain ⟨acc',hshown⟩ := emitError_shows h columns exts hb htop
    constructor
    · rintro ⟨r,hr,helements,-⟩
      rw [streamed_unique hr hshown] at helements
      have hlen := congrArg List.length helements
      simp only [taggedElements,List.length_append,List.length_map,mapRowsToMaps_length,
        List.length_take,List.length_singleton] at hlen
      have hle := Nat.div_mul_le_self rows.length b
      exact ⟨htop,Dvd.intro_left (rows.length / b) (by omega)⟩
    · rintro ⟨-,hdvd⟩
      rw [Nat.div_mul_cancel hdvd,List.take_length] at hshown
      exact ⟨_,hshown,rfl,rfl⟩
  · obtain ⟨acc',hshown⟩ := emitError_invalid columns script exts hb htop
    constructor
    · rintro ⟨r,hr,helements,-⟩
      rw [streamed_unique hr hshown] at helements
      have hlast := congrArg List.getLast? helements
      simp [taggedElements] at hlast
    · rintro ⟨hlt,-⟩
      exact absurd hlt htop

/-- Two rows, the second not UTF-8: fetched one by one the first is seen. -/
theorem emit_error_yields_every_row_single :
    Executes [.row ["a"] [.integer 1],.row ["a"] [.text [0xFF]]] [[.int 1]]
        (.error (.utf8Error 0 "invalid utf-8 sequence of 1 bytes from index 0")) ∧
      ∃ r, Streamed ["a"]
          [.row ["a"] [.integer 1],.row ["a"] [.text [0xFF]]] (emitErrorOpts [] 1) r ∧
        r.elements = taggedElements ["a"] [] [[.int 1]]
          (.utf8Error 0 "invalid utf-8 sequence of 1 bytes from index 0") ∧ r.raised = none := by
  have h : Executes [.row ["a"] [.integer 1],.row ["a"] [.text [0xFF]]] [[.int 1]]
      (.error (.utf8Error 0 "invalid utf-8 sequence of 1 bytes from index 0")) := rfl
  exact ⟨h,(emit_error_yields_every_row_iff h ["a"] [] (by decide)).mpr (by decide)⟩

/-- Fetched two at a time the good row is lost with its batch. -/
theorem emit_error_drops_partial_batch :
    Executes [.row ["a"] [.integer 1],.row ["a"] [.text [0xFF]]] [[.int 1]]
        (.error (.utf8Error 0 "invalid utf-8 sequence of 1 bytes from index 0")) ∧
      ∃ r, Streamed ["a"]
          [.row ["a"] [.integer 1],.row ["a"] [.text [0xFF]]] (emitErrorOpts [] 2) r ∧
        r.elements =
          [.error (.xqlite (.utf8Error 0 "invalid utf-8 sequence of 1 bytes from index 0"))] := by
  have h : Executes [.row ["a"] [.integer 1],.row ["a"] [.text [0xFF]]] [[.int 1]]
      (.error (.utf8Error 0 "invalid utf-8 sequence of 1 bytes from index 0")) := rfl
  obtain ⟨acc',hshown⟩ := emitError_shows h ["a"] [] (b := 2) (by decide) (by decide)
  exact ⟨h,_,hshown,rfl⟩

end EmitError

end Xqlite.Stream
