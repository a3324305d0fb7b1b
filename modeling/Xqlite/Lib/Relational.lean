import Mathlib.Data.List.Find
import Mathlib.Data.List.Nodup
set_option autoImplicit false

/-! Tables with foreign keys, and the statements that rebuild one of them. Names,
values, and whatever else a table declares are parameters. Attached to a table are
the objects that go with it, such as indexes, triggers and records kept about it. -/

namespace Relational

inductive OnDelete where
  | noAction | restrict | setNull | setDefault | cascade
  deriving DecidableEq, Repr

/-- Child rows are deleted or updated. -/
def OnDelete.acts : OnDelete → Bool
  | .setNull | .setDefault | .cascade => true
  | .noAction | .restrict => false

/-- Columns are given by their position; `defaults` are those of the child columns. -/
structure ForeignKey (κ α : Type) where
  columns : List Nat
  parent : κ
  parentColumns : List Nat
  onDelete : OnDelete
  defaults : List α
  deriving DecidableEq, Repr

structure Table (κ γ α : Type) where
  name : κ
  header : γ
  foreignKeys : List (ForeignKey κ α)
  rows : List (List α)
  deriving DecidableEq, Repr

structure Database (κ γ α β : Type) where
  tables : List (Table κ γ α)
  attached : List (κ × β)
  enforced : Bool
  deriving DecidableEq, Repr

/-- The missing value, when a child's value names a parent's, and whether the parent has
the key that a foreign key names. One without it is ignored. -/
structure Keys (κ γ α : Type) where
  null : α
  same : α → α → Bool
  usable : Table κ γ α → ForeignKey κ α → Bool

variable {κ γ α β : Type} [DecidableEq κ]

def lookup (tables : List (Table κ γ α)) (name : κ) : Option (Table κ γ α) :=
  tables.find? fun T => T.name = name

def rename (old new name : κ) : κ := if name = old then new else name

def Table.renamed (relabel : γ → γ) (old new : κ) (T : Table κ γ α) : Table κ γ α :=
  {T with
    name := rename old new T.name
    header := if T.name = old then relabel T.header else T.header
    foreignKeys := T.foreignKeys.map fun fk => {fk with parent := rename old new fk.parent}}

section Lookup

variable {tables : List (Table κ γ α)} {T : Table κ γ α} {n old new t : κ}

theorem lookup_some (h : lookup tables n = some T) : T ∈ tables ∧ T.name = n :=
  ⟨List.mem_of_find?_eq_some h,by simpa using List.find?_some h⟩

theorem lookup_none : lookup tables n = none ↔ ∀ T ∈ tables, T.name ≠ n := by
  simp [lookup]

theorem lookup_mem (h : (tables.map (fun T => T.name)).Nodup) (hT : T ∈ tables) :
    lookup tables T.name = some T := by
  cases hl : lookup tables T.name with
  | none => exact absurd rfl (lookup_none.mp hl T hT)
  | some U =>
    obtain ⟨hU,hname⟩ := lookup_some hl
    rw [List.inj_on_of_nodup_map h hU hT hname]

theorem lookup_map {f : Table κ γ α → Table κ γ α} (hf : ∀ T, (f T).name = T.name) :
    lookup (tables.map f) n = (lookup tables n).map f := by
  simp [lookup,List.find?_map,hf]

theorem lookup_filter_ne (h : n ≠ t) :
    lookup (tables.filter fun X => X.name ≠ t) n = lookup tables n := by
  induction tables with
  | nil => rfl
  | cons X tables ih =>
    by_cases hX : X.name = t
    · have hn : X.name ≠ n := fun hXn => h (hXn.symm.trans hX)
      simpa [lookup,hX,hn,h.symm] using ih
    · by_cases hn : X.name = n
      · simp [lookup,hn,h]
      · simpa [lookup,hX,hn] using ih

theorem lookup_append : lookup (tables ++ [T]) n =
    (lookup tables n).or (if T.name = n then some T else none) := by
  by_cases hT : T.name = n <;> simp [lookup,List.find?_append,hT]

theorem lookup_renamed_new (relabel : γ → γ) (h : lookup tables new = none) :
    lookup (tables.map (Table.renamed relabel old new)) new =
      (lookup tables old).map (Table.renamed relabel old new) := by
  rw [lookup_none] at h
  have hp : ∀ X ∈ tables, (decide ((Table.renamed relabel old new X).name = new)) =
      decide (X.name = old) := by
    intro X hX
    have hne := h X hX
    by_cases ho : X.name = old <;> simp [Table.renamed,rename,ho,hne]
  simp only [lookup,List.find?_map,Function.comp_def]
  rw [List.find?_congr hp]

theorem lookup_renamed_of_ne (relabel : γ → γ) (hold : n ≠ old) (hnew : n ≠ new) :
    lookup (tables.map (Table.renamed relabel old new)) n =
      (lookup tables n).map (Table.renamed relabel old new) := by
  have hp : ∀ X ∈ tables, (decide ((Table.renamed relabel old new X).name = n)) =
      decide (X.name = n) := by
    intro X _
    by_cases ho : X.name = old
    · simp [Table.renamed,rename,ho,hold.symm,hnew.symm]
    · simp [Table.renamed,rename,ho]
  simp only [lookup,List.find?_map,Function.comp_def]
  rw [List.find?_congr hp]

theorem lookup_renamed_old (relabel : γ → γ) (h : old ≠ new) :
    lookup (tables.map (Table.renamed relabel old new)) old = none := by
  rw [lookup_none]
  intro X hX
  obtain ⟨Y,_,rfl⟩ := List.mem_map.mp hX
  by_cases ho : Y.name = old
  · simp [Table.renamed,rename,ho,h.symm]
  · simp [Table.renamed,rename,ho]

end Lookup

theorem filterMap_eq_self_iff {τ : Type} {f : τ → Option τ} {xs : List τ} :
    xs.filterMap f = xs ↔ ∀ x ∈ xs, f x = some x := by
  induction xs with
  | nil => simp
  | cons x xs ih =>
    cases hf : f x with
    | none =>
      -- A dropped element cannot be made up for: the result is too short.
      have hlen := List.length_filterMap_le f xs
      simp only [List.filterMap_cons,hf,List.mem_cons,forall_eq_or_imp,reduceCtorEq,false_and,
        iff_false]
      intro h
      rw [h,List.length_cons] at hlen
      omega
    | some y => simp [hf,ih]

section Statements

def createTable (d : Database κ γ α β) (T : Table κ γ α) : Option (Database κ γ α β) :=
  if (lookup d.tables T.name).isSome then none else some {d with tables := d.tables ++ [T]}

def setRows (tables : List (Table κ γ α)) (name : κ) (rows : List (List α)) :
    List (Table κ γ α) :=
  tables.map fun T => if T.name = name then {T with rows} else T

/-- `INSERT INTO into SELECT * FROM source`, with `store` for what a table makes of a row. -/
def insertSelect (store : Table κ γ α → List α → Option (List α)) (into source : κ)
    (d : Database κ γ α β) : Option (Database κ γ α β) := do
  let T ← lookup d.tables into
  let S ← lookup d.tables source
  let rows ← S.rows.mapM (store T)
  some {d with tables := setRows d.tables into (T.rows ++ rows)}

def renameTable (relabel : γ → γ) (old new : κ) (d : Database κ γ α β) :
    Option (Database κ γ α β) :=
  if (lookup d.tables old).isNone || (lookup d.tables new).isSome then none
  else some {d with
    tables := d.tables.map (Table.renamed relabel old new)
    attached := d.attached.map fun a => (rename old new a.1,a.2)}

variable {d d' : Database κ γ α β}

theorem createTable_some {T : Table κ γ α} (h : createTable d T = some d') :
    lookup d.tables T.name = none ∧ d' = {d with tables := d.tables ++ [T]} := by
  unfold createTable at h
  cases hl : lookup d.tables T.name with
  | some U => simp [hl] at h
  | none =>
    simp only [hl,Option.isSome_none,Bool.false_eq_true,if_false,Option.some.injEq] at h
    exact ⟨rfl,h.symm⟩

theorem insertSelect_some {store : Table κ γ α → List α → Option (List α)} {into source : κ}
    (h : insertSelect store into source d = some d') :
    ∃ T S rows, lookup d.tables into = some T ∧ lookup d.tables source = some S ∧
      S.rows.mapM (store T) = some rows ∧
      d' = {d with tables := setRows d.tables into (T.rows ++ rows)} := by
  simp only [insertSelect,bind,Option.bind_eq_some_iff,Option.some.injEq] at h
  obtain ⟨T,hT,S,hS,rows,hrows,rfl⟩ := h
  exact ⟨T,S,rows,hT,hS,hrows,rfl⟩

theorem renameTable_some {relabel : γ → γ} {old new : κ}
    (h : renameTable relabel old new d = some d') :
    lookup d.tables new = none ∧
      d' = {d with
        tables := d.tables.map (Table.renamed relabel old new)
        attached := d.attached.map fun a => (rename old new a.1,a.2)} := by
  unfold renameTable at h
  by_cases hg : ((lookup d.tables old).isNone || (lookup d.tables new).isSome) = true
  · simp [hg] at h
  · rw [if_neg hg,Option.some.injEq] at h
    simp only [Bool.or_eq_true,not_or,Bool.not_eq_true,Option.isSome_eq_false_iff,
      Option.isNone_iff_eq_none] at hg
    exact ⟨hg.2,h.symm⟩

variable {store : Table κ γ α → List α → Option (List α)} {T N : Table κ γ α}

theorem setRows_append_fresh (hfresh : lookup d.tables N.name = none) (rows : List (List α)) :
    setRows (d.tables ++ [N]) N.name rows = d.tables ++ [{N with rows}] := by
  have hid : setRows d.tables N.name rows = d.tables := by
    unfold setRows
    refine (List.map_congr_left ?_).trans (List.map_id _)
    intro X hX
    simp [lookup_none.mp hfresh X hX]
  simp only [setRows,List.map_append,List.map_cons,List.map_nil,if_true] at hid ⊢
  rw [hid]

theorem rebuild_copy (hfresh : lookup d.tables N.name = none) (hempty : N.rows = [])
    (hT : lookup d.tables T.name = some T)
    (h : insertSelect store N.name T.name {d with tables := d.tables ++ [N]} = some d') :
    ∃ rows, T.rows.mapM (store N) = some rows ∧
      d' = {d with tables := d.tables ++ [{N with rows}]} := by
  obtain ⟨N',T',rows,hN',hT',hrows,rfl⟩ := insertSelect_some h
  have hN : N' = N := by simpa [lookup_append,hfresh] using hN'.symm
  have hTT : T' = T := by simpa [lookup_append,hT] using hT'.symm
  subst hN hTT
  refine ⟨rows,hrows,?_⟩
  simp only [hempty,List.nil_append]
  rw [setRows_append_fresh hfresh]

end Statements

theorem mapM_some_eq_map {σ τ : Type} {f : σ → Option τ} {g : σ → τ} {xs : List σ} {ys : List τ}
    (hf : ∀ x ∈ xs, ∀ y, f x = some y → y = g x) (h : xs.mapM f = some ys) : ys = xs.map g := by
  induction xs generalizing ys with
  | nil =>
    simp only [List.mapM_nil,Option.pure_def,Option.some.injEq] at h
    exact h.symm
  | cons x xs ih =>
    simp only [List.mapM_cons,Option.bind_eq_bind,Option.bind_eq_some_iff,Option.pure_def,
      Option.some.injEq] at h
    obtain ⟨y,hy,zs,hzs,rfl⟩ := h
    rw [List.map_cons,hf x (by simp) y hy,
      ih (fun x' hx' => hf x' (List.mem_cons_of_mem _ hx')) hzs]

variable [DecidableEq α] (K : Keys κ γ α)

/-- A row with a null in its key refers to nothing. -/
def refers (fk : ForeignKey κ α) (row parentRow : List α) : Bool :=
  (fk.columns.zip fk.parentColumns).all fun (i,j) =>
    match row[i]?, parentRow[j]? with
    | some v, some w => v ≠ K.null && K.same v w
    | _, _ => false

/-- The row refers to a row of the parent that satisfies `lost`. -/
def meets (tables : List (Table κ γ α)) (lost : κ → List α → Bool) (fk : ForeignKey κ α)
    (row : List α) : Bool :=
  tables.any fun P => P.name = fk.parent && K.usable P fk &&
    P.rows.any fun p => lost P.name p && refers K fk row p

/-- The rows lost with table `t`: its own, and those ON DELETE CASCADE reaches from
them in at most the given number of rounds. -/
def lost (tables : List (Table κ γ α)) (t : κ) : Nat → κ → List α → Bool
  | 0, name, _ => name = t
  | n+1, name, row =>
    lost tables t n name row || tables.any fun X => X.name = name &&
      X.foreignKeys.any fun fk => fk.onDelete = .cascade && meets K tables (lost tables t n) fk row

/-- Each round loses a row or is the last. -/
def rounds (tables : List (Table κ γ α)) : Nat := (tables.flatMap fun T => T.rows).length

def lostWith (tables : List (Table κ γ α)) (t : κ) : κ → List α → Bool :=
  lost K tables t (rounds tables)

def ForeignKey.detach (fk : ForeignKey κ α) (row : List α) : List α :=
  match fk.onDelete with
  | .setNull => fk.columns.foldl (fun r i => r.set i K.null) row
  | .setDefault => (fk.columns.zip fk.defaults).foldl (fun r iv => r.set iv.1 iv.2) row
  | .noAction | .restrict | .cascade => row

/-- What becomes of a row of `X` when all rows of `t` are deleted. -/
def settle (tables : List (Table κ γ α)) (t : κ) (X : Table κ γ α) (row : List α) :
    Option (List α) :=
  if lostWith K tables t X.name row then none
  else some (X.foreignKeys.foldl
    (fun r fk => if meets K tables (lostWith K tables t) fk row then fk.detach K r else r) row)

def settleTable (tables : List (Table κ γ α)) (t : κ) (X : Table κ γ α) : Table κ γ α :=
  {X with rows := X.rows.filterMap (settle K tables t X)}

/-- A row that is left refers to one that is lost. -/
def dangling (tables : List (Table κ γ α)) (t : κ) (left : List (Table κ γ α)) : Bool :=
  left.any fun X => X.rows.any fun row => X.foreignKeys.any fun fk =>
    meets K tables (lostWith K tables t) fk row

section Deletion

variable {tables : List (Table κ γ α)} {T : Table κ γ α}

/-- No such row refers to a row of `T`. -/
def Unreferenced (T : Table κ γ α) (fks : List (ForeignKey κ α)) (rows : List (List α)) : Prop :=
  ∀ fk ∈ fks, fk.parent = T.name → K.usable T fk = true →
    ∀ row ∈ rows, ∀ p ∈ T.rows, refers K fk row p = false

theorem lost_own (n : Nat) (row : List α) : lost K tables T.name n T.name row = true := by
  induction n with
  | zero => simp [lost]
  | succ n ih => simp [lost,ih]

theorem meets_iff {lost : κ → List α → Bool} {fk : ForeignKey κ α} {row : List α} :
    meets K tables lost fk row = true ↔
      ∃ P ∈ tables, P.name = fk.parent ∧ K.usable P fk = true ∧
        ∃ p ∈ P.rows, lost P.name p = true ∧ refers K fk row p = true := by
  simp [meets,and_assoc]

theorem not_meets_of_unreferenced (hnames : (tables.map (fun X => X.name)).Nodup)
    (hT : T ∈ tables) {lost : κ → List α → Bool}
    (hlost : ∀ P ∈ tables, ∀ p ∈ P.rows, lost P.name p = true → P.name = T.name)
    {X : Table κ γ α} (hX : Unreferenced K T X.foreignKeys X.rows) {fk : ForeignKey κ α}
    (hfk : fk ∈ X.foreignKeys) {row : List α} (hrow : row ∈ X.rows) :
    meets K tables lost fk row = false := by
  rw [Bool.eq_false_iff]
  intro hm
  obtain ⟨P,hP,hparent,husable,p,hp,hl,hr⟩ := (meets_iff K).mp hm
  have hname := hlost P hP p hp hl
  have hPT : P = T := List.inj_on_of_nodup_map hnames hP hT hname
  subst hPT
  rw [hX fk hfk hparent.symm husable row hrow p hp] at hr
  cases hr

theorem lost_of_unreferenced (hnames : (tables.map (fun X => X.name)).Nodup) (hT : T ∈ tables)
    (h : ∀ X ∈ tables, X.name ≠ T.name → Unreferenced K T X.foreignKeys X.rows) (n : Nat) :
    ∀ X ∈ tables, ∀ row ∈ X.rows, lost K tables T.name n X.name row = true → X.name = T.name := by
  induction n with
  | zero => simp [lost]
  | succ n ih =>
    intro X hX row hrow hl
    by_contra hne
    simp only [lost,Bool.or_eq_true,List.any_eq_true,Bool.and_eq_true,decide_eq_true_eq] at hl
    rcases hl with hl | ⟨Y,hY,hYX,fk,hfk,_,hm⟩
    · exact hne (ih X hX row hrow hl)
    · have hYX' : Y = X := List.inj_on_of_nodup_map hnames hY hX hYX
      subst hYX'
      rw [not_meets_of_unreferenced K hnames hT ih (h Y hX hne) hfk hrow] at hm
      cases hm

theorem settle_of_unreferenced (hnames : (tables.map (fun X => X.name)).Nodup) (hT : T ∈ tables)
    (h : ∀ X ∈ tables, X.name ≠ T.name → Unreferenced K T X.foreignKeys X.rows)
    {X : Table κ γ α} (hX : X ∈ tables) (hne : X.name ≠ T.name) {row : List α}
    (hrow : row ∈ X.rows) : settle K tables T.name X row = some row := by
  have hlost := lost_of_unreferenced K hnames hT h (rounds tables)
  have hkept : lostWith K tables T.name X.name row = false := by
    rw [Bool.eq_false_iff]
    exact fun hl => hne (hlost X hX row hrow hl)
  have hfold : ∀ fks : List (ForeignKey κ α), (∀ fk ∈ fks, fk ∈ X.foreignKeys) →
      fks.foldl (fun r fk =>
        if meets K tables (lostWith K tables T.name) fk row then fk.detach K r else r) row = row := by
    intro fks hfks
    induction fks with
    | nil => rfl
    | cons fk fks ih =>
      have hm : meets K tables (lostWith K tables T.name) fk row = false :=
        not_meets_of_unreferenced K hnames hT hlost (h X hX hne) (hfks fk (by simp)) hrow
      simp only [List.foldl_cons,hm,Bool.false_eq_true,if_false]
      exact ih (fun fk hfk => hfks fk (List.mem_cons_of_mem _ hfk))
  simp [settle,hkept,hfold X.foreignKeys (fun _ hfk => hfk)]

/-- A deletion that leaves nothing dangling changes no other row exactly when no
other row refers to a deleted one. -/
theorem settleTable_rows_iff (hnames : (tables.map (fun X => X.name)).Nodup) (hT : T ∈ tables)
    (hd : dangling K tables T.name
      ((tables.filter fun X => X.name ≠ T.name).map (settleTable K tables T.name)) = false) :
    (∀ X ∈ tables, X.name ≠ T.name → (settleTable K tables T.name X).rows = X.rows) ↔
      ∀ X ∈ tables, X.name ≠ T.name → Unreferenced K T X.foreignKeys X.rows := by
  constructor
  · intro h X hX hne fk hfk hparent husable row hrow p hp
    have hself := filterMap_eq_self_iff.mp (h X hX hne) row hrow
    have hleft : row ∈ (settleTable K tables T.name X).rows := List.mem_filterMap.mpr ⟨row,hrow,hself⟩
    have hno : meets K tables (lostWith K tables T.name) fk row = false := by
      rw [Bool.eq_false_iff] at hd ⊢
      intro hm
      apply hd
      simp only [dangling,List.any_eq_true]
      exact ⟨_,List.mem_map.mpr ⟨X,List.mem_filter.mpr ⟨hX,by simpa using hne⟩,rfl⟩,row,hleft,
        fk,hfk,hm⟩
    rw [Bool.eq_false_iff] at hno ⊢
    intro hr
    exact hno ((meets_iff K).mpr ⟨T,hT,hparent.symm,husable,p,hp,lost_own K _ p,hr⟩)
  · intro h X hX hne
    exact filterMap_eq_self_iff.mpr (fun row hrow => settle_of_unreferenced K hnames hT h hX hne hrow)

end Deletion

section Drop

/-- The tables other than `t`, as a DROP TABLE leaves them. -/
def leftBy (t : κ) (d : Database κ γ α β) : List (Table κ γ α) :=
  let kept := d.tables.filter fun X => X.name ≠ t
  if d.enforced then kept.map (settleTable K d.tables t) else kept

/-- Under enforcement all rows are deleted first, with the actions of the foreign keys
that point at the table; the statement is refused if a row is left dangling. -/
def dropTable (t : κ) (d : Database κ γ α β) : Option (Database κ γ α β) :=
  if (lookup d.tables t).isNone then none
  else if d.enforced && dangling K d.tables t (leftBy K t d) then none
  else some {d with
    tables := leftBy K t d
    attached := d.attached.filter fun a => a.1 ≠ t}

variable {d d' : Database κ γ α β}

theorem dropTable_some {t : κ} (h : dropTable K t d = some d') :
    (d.enforced = true → dangling K d.tables t (leftBy K t d) = false) ∧
      d' = {d with
        tables := leftBy K t d
        attached := d.attached.filter fun a => a.1 ≠ t} := by
  unfold dropTable at h
  cases hl : lookup d.tables t with
  | none => simp [hl] at h
  | some T =>
    simp only [hl,Option.isNone_some,Bool.false_eq_true,if_false] at h
    by_cases hd : (d.enforced && dangling K d.tables t (leftBy K t d)) = true
    · simp [hd] at h
    · rw [if_neg hd,Option.some.injEq] at h
      refine ⟨?_,h.symm⟩
      intro he
      simpa [he] using hd

theorem lookup_leftBy {t n : κ} (h : n ≠ t) : lookup (leftBy K t d) n =
    (lookup d.tables n).map fun X => if d.enforced then settleTable K d.tables t X else X := by
  unfold leftBy
  cases d.enforced with
  | false =>
    simp only [Bool.false_eq_true,if_false,Option.map_id']
    exact lookup_filter_ne h
  | true =>
    simp only [if_true]
    rw [lookup_map (f := settleTable K d.tables t) (fun _ => rfl),lookup_filter_ne h]

/-- A DROP TABLE that succeeded under enforcement changed no other row exactly when
none referred to the table. -/
theorem dropTable_rows_iff {T : Table κ γ α} (hnames : (d.tables.map (fun X => X.name)).Nodup)
    (hT : T ∈ d.tables) (he : d.enforced = true) (h : dropTable K T.name d = some d') :
    (∀ X ∈ d.tables, X.name ≠ T.name → (settleTable K d.tables T.name X).rows = X.rows) ↔
      ∀ X ∈ d.tables, X.name ≠ T.name → Unreferenced K T X.foreignKeys X.rows := by
  have hd := (dropTable_some K h).1 he
  simp only [leftBy,he,if_true] at hd
  exact settleTable_rows_iff K hnames hT hd

end Drop

section Rebuild

variable {relabel : γ → γ} {d₂ d₃ d₄ : Database κ γ α β} {T N : Table κ γ α}

theorem rebuild_lookup (hne : N.name ≠ T.name) (h₃ : dropTable K T.name d₂ = some d₃)
    (h₄ : renameTable relabel N.name T.name d₃ = some d₄) :
    lookup d₄.tables T.name = (lookup d₂.tables N.name).map (fun X =>
        Table.renamed relabel N.name T.name
          (if d₂.enforced then settleTable K d₂.tables T.name X else X)) ∧
      lookup d₄.tables N.name = none ∧
      ∀ n, n ≠ T.name → n ≠ N.name →
        lookup d₄.tables n = (lookup d₂.tables n).map (fun X =>
          Table.renamed relabel N.name T.name
            (if d₂.enforced then settleTable K d₂.tables T.name X else X)) := by
  obtain ⟨_,rfl⟩ := dropTable_some K h₃
  obtain ⟨hfree,rfl⟩ := renameTable_some h₄
  refine ⟨?_,lookup_renamed_old relabel hne,?_⟩
  · rw [lookup_renamed_new relabel hfree,lookup_leftBy K hne,Option.map_map]
    rfl
  · intro n hn hnN
    rw [lookup_renamed_of_ne relabel hnN hn,lookup_leftBy K hn,Option.map_map]
    rfl

end Rebuild

end Relational
