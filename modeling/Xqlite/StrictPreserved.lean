import Xqlite.StrictRebuild
set_option autoImplicit false

namespace Xqlite.Strict
open Transaction Relational

/-- What SQLite keeps true of a database: names are unique, every stored value is one
its column's affinity leaves alone, what is attached hangs on a table, and the text of
an index declares it. The last field is about names with a double quote: such a table
is spelled in quotes in its text, which the pattern does not rename, so the text still
declares the table itself. -/
structure WellFormed (R : Pcre) (Q : Sqlite) (d : Contents) : Prop where
  names : (d.tables.map (fun T => T.name)).Nodup
  stored : ∀ T ∈ d.tables, ∀ row ∈ T.rows, ∀ cv ∈ T.header.columns.zip row,
    Q.affinity cv.1 cv.2 = cv.2
  attached : ∀ a ∈ d.attached, (lookup d.tables a.1).isSome
  indexes : ∀ table name sql, (table,Attached.index name (some sql)) ∈ d.attached →
    Q.read sql = some (.index name table)
  quoted : ∀ T ∈ d.tables, '"' ∈ T.name.toList → ∀ sql,
    strictSql R T.name (some T.header.sql) = some sql → ∀ decl, Q.read sql = some decl →
      ∃ strict columns fks, decl = .table T.name strict columns fks

/-- The table is STRICT with its rows and columns, what was attached to it is there,
and no row of another table has changed; SQLite's own tables have the same rows, in
whatever order. -/
structure Preserved (d d' : Contents) (table : String) : Prop where
  rebuilt : ∃ T T', lookup d.tables table = some T ∧ lookup d'.tables table = some T' ∧
    T'.header.strict = true ∧ T'.header.columns = T.header.columns ∧ T'.rows = T.rows
  indexes : ∀ name sql, (table,Attached.index name (some sql)) ∈ d.attached →
    (table,Attached.index name (some sql)) ∈ d'.attached
  triggers : ∀ name, (table,Attached.trigger name) ∈ d.attached →
    (table,Attached.trigger name) ∈ d'.attached
  others : ∀ name X, name ≠ table → lookup d.tables name = some X →
    ∃ X', lookup d'.tables name = some X' ∧ X'.rows = X.rows
  records : (recordsIn d'.attached).Perm (recordsIn d.attached)

/-- No row refers to a row of `T`: none of another table, and none of `T` itself,
whose copy still refers to `T` by name when `T` is dropped. -/
def NoReferences (Q : Sqlite) (d : Contents) (T : Relation)
    (fks : List (ForeignKey String Value)) : Prop :=
  (∀ X ∈ d.tables, X.name ≠ T.name → Unreferenced (Q.keys d) T X.foreignKeys X.rows) ∧
    Unreferenced (Q.keys d) T fks T.rows

def recordsOf (d : Contents) (table : String) : List (String × Record) :=
  (recordsIn d.attached).filter fun r => r.1 = table

/-- The counter that a copy of `T` under the given text starts with. -/
def Sqlite.copyCounter (Q : Sqlite) (sql : String) (T : Relation) : List (String × Record) :=
  (Q.counter ⟨sql,true,T.header.columns⟩ none T.rows).toList.map fun last =>
    (T.name,.counter last)

/-- The rewritten text declares the temporary table, STRICT and with the same columns;
the table has no trigger; SQLite keeps no record of it but a counter that the copy has
too; and foreign keys are off or no row refers to it. -/
def Safe (R : Pcre) (Q : Sqlite) (d : Contents) (table : String) : Prop :=
  ∃ T sql fks, lookup d.tables table = some T ∧
    strictSql R table (some T.header.sql) = some sql ∧
    Q.read sql = some (.table (tmpTable table) true T.header.columns fks) ∧
    (∀ name, (table,Attached.trigger name) ∉ d.attached) ∧
    recordsOf d table = Q.copyCounter sql T ∧
    (d.enforced = false ∨ NoReferences Q d T fks)

/-- No trigger hangs on a table that the actions of foreign keys can reach. -/
def Silent (d : Contents) : Prop :=
  d.enforced = true → ∀ X ∈ d.tables, hasTrigger d X.name = true →
    ∀ fk ∈ X.foreignKeys, fk.onDelete.acts = false

theorem tmpTable_ne (table : String) : tmpTable table ≠ table := by
  intro h
  have hlen := congrArg String.length h
  simp [tmpTable] at hlen

theorem unquoteChars_eq {cs : List Char} (h : '"' ∉ cs) : unquoteChars cs = some cs := by
  induction cs with
  | nil => rfl
  | cons c cs ih =>
    simp only [List.mem_cons,not_or] at h
    have hc : c ≠ '"' := Ne.symm h.1
    rw [unquoteChars.eq_4 c cs (by simp [hc]) (by simp [hc])]
    simp [ih h.2]

theorem unquote_eq {name : String} (h : '"' ∉ name.toList) : unquote name = some name := by
  simp [unquote,unquoteChars_eq h]

theorem unquote_tmpTable {table : String} (h : '"' ∉ table.toList) :
    unquote (tmpTable table) = some (tmpTable table) := by
  refine unquote_eq ?_
  rw [tmpTable,String.toList_append,List.mem_append]
  rintro (hm | hm)
  · exact h hm
  · exact absurd hm (by decide)

section Records

variable {attached : List (String × Attached)}

theorem mem_recordsIn {t : String} {r : Record} :
    (t,r) ∈ recordsIn attached ↔ (t,.record r) ∈ attached := by
  simp only [recordsIn,List.mem_filterMap]
  constructor
  · rintro ⟨⟨t',a⟩,hmem,hr⟩
    cases a with
    | index name sql => cases hr
    | trigger name => cases hr
    | record r' =>
      cases hr
      exact hmem
  · intro hmem
    exact ⟨_,hmem,rfl⟩

theorem recordsIn_append (added : List (String × Attached)) :
    recordsIn (attached ++ added) = recordsIn attached ++ recordsIn added :=
  List.filterMap_append

theorem recordsIn_filter_ne (t : String) :
    recordsIn (attached.filter fun a => a.1 ≠ t) =
      (recordsIn attached).filter fun r => r.1 ≠ t := by
  induction attached with
  | nil => rfl
  | cons a attached ih =>
    obtain ⟨t',a⟩ := a
    by_cases h : t' = t <;> cases a <;> simpa [recordsIn,h] using ih

theorem recordsIn_rename (old new : String) :
    recordsIn (attached.map fun a => (rename old new a.1,a.2)) =
      (recordsIn attached).map fun r => (rename old new r.1,r.2) := by
  induction attached with
  | nil => rfl
  | cons a attached ih =>
    obtain ⟨t',a⟩ := a
    cases a <;> simpa [recordsIn] using ih

/-- Putting at most one record in the place of those of a table changes nothing exactly
when it had that one. -/
theorem replaced_perm_iff {records : List (String × Record)} {table : String}
    {new : Option (String × Record)} :
    ((records.filter fun r => r.1 ≠ table) ++ new.toList).Perm records ↔
      (records.filter fun r => r.1 = table) = new.toList := by
  have hsplit : ((records.filter fun r => r.1 ≠ table) ++
      records.filter fun r => r.1 = table).Perm records := by
    have hperm := List.filter_append_perm (fun r : String × Record => decide (r.1 ≠ table)) records
    simpa using hperm
  have hleft : ((records.filter fun r => r.1 ≠ table) ++ new.toList).Perm records ↔
      new.toList.Perm (records.filter fun r => r.1 = table) :=
    ⟨fun h => (List.perm_append_left_iff _).mp (h.trans hsplit.symm),
      fun h => ((List.perm_append_left_iff _).mpr h).trans hsplit⟩
  rw [hleft]
  cases new with
  | none => simp [List.nil_perm]
  | some r =>
    simp only [Option.toList_some,List.singleton_perm]
    exact eq_comm

end Records

section Engine

variable {R : Pcre} {Q : Sqlite} {d d' : Contents} {table : String}

theorem run_ok {n : Nat} {s : Stmt} (h : Q.engine.run n s d = .ok d') :
    Q.apply d s = some d' := by
  simp only [Sqlite.engine] at h
  cases hr : Q.refuse n s d with
  | some e => simp [hr] at h
  | none =>
    cases ha : Q.apply d s with
    | none => simp [hr,ha] at h
    | some d₁ =>
      simp only [hr,ha,Except.ok.injEq] at h
      rw [h]

theorem answer_ok {α : Type} {rows rows' : α} (h : Q.answer d rows = .ok rows') :
    rows' = rows := by
  cases hr : Q.refuseQuery d with
  | some e => simp [Sqlite.answer,hr] at h
  | none =>
    simp only [Sqlite.answer,hr,Except.ok.injEq] at h
    exact h.symm

theorem storeValue_some {strict : Bool} {cv : Column × Value} {v : Value}
    (hcv : Q.affinity cv.1 cv.2 = cv.2) (h : Q.storeValue strict cv = some v) : v = cv.2 := by
  unfold Sqlite.storeValue at h
  simp only [hcv,ite_self] at h
  cases strict with
  | false => simpa using h.symm
  | true =>
    by_cases hs : strictHolds cv.1 cv.2
    · simpa [hs] using h.symm
    · simp [hs] at h

theorem store_some {T : Relation} {row row' : List Value}
    (hrow : ∀ cv ∈ T.header.columns.zip row, Q.affinity cv.1 cv.2 = cv.2)
    (h : Q.store T row = some row') : row' = row := by
  unfold Sqlite.store at h
  by_cases hlen : row.length = T.header.columns.length
  · rw [if_pos hlen] at h
    have := mapM_some_eq_map (g := Prod.snd)
      (fun cv hcv v hv => storeValue_some (hrow cv hcv) hv) h
    rw [this,List.map_snd_zip (by omega)]
  · simp [hlen] at h

theorem mem_indexSqls {sql : String} : sql ∈ indexSqls table d ↔
    ∃ name, (table,Attached.index name (some sql)) ∈ d.attached := by
  simp only [indexSqls,List.mem_filterMap]
  constructor
  · rintro ⟨⟨t,a⟩,hmem,hsql⟩
    split at hsql
    · rename_i t' name sql' heq
      obtain ⟨rfl,rfl⟩ := Prod.mk.inj heq
      split at hsql
      · rename_i ht
        subst ht
        cases hsql
        exact ⟨name,hmem⟩
      · cases hsql
    · cases hsql
  · rintro ⟨name,hmem⟩
    exact ⟨_,hmem,by simp⟩

theorem tableSqls_single {original : Option String} (h : tableSqls table d = [original]) :
    ∃ T, lookup d.tables table = some T ∧ original = some T.header.sql := by
  unfold tableSqls at h
  cases hf : d.tables.filter (fun T => T.name = table) with
  | nil => simp [hf] at h
  | cons T rest =>
    refine ⟨T,?_,?_⟩
    · rw [lookup,← List.head?_filter,hf]
      rfl
    · simp only [hf,List.map_cons,List.cons.injEq] at h
      exact h.1.symm

/-- What replaying the texts of indexes changes: the tables and records stay, what was
attached stays, each index is there, and no trigger is new. -/
structure Replayed (Q : Sqlite) (table : String) (sqls : List String) (d d' : Contents) : Prop where
  tables : d'.tables = d.tables
  kept : ∀ a ∈ d.attached, a ∈ d'.attached
  added : ∀ sql ∈ sqls, ∀ name, Q.read sql = some (.index name table) →
    (table,Attached.index name (some sql)) ∈ d'.attached
  triggers : ∀ t name, (t,Attached.trigger name) ∈ d'.attached →
    (t,Attached.trigger name) ∈ d.attached
  records : recordsIn d'.attached = recordsIn d.attached

theorem declare_index_some {sql name : String}
    (h : declare sql d (.index name table) = some d') :
    d' = {d with attached := d.attached ++ [(table,.index name (some sql))]} := by
  simp only [declare] at h
  split at h
  · cases h
  · exact (Option.some.inj h).symm

theorem recreate_indexes_replayed {n : Nat} {sqls : List String}
    (hread : ∀ sql ∈ sqls, ∃ name, Q.read sql = some (.index name table))
    (h : runAll Q.engine.toStore n (sqls.map .create) d = .ok d') :
    Replayed Q table sqls d d' := by
  induction sqls generalizing n d with
  | nil =>
    simp only [List.map_nil,runAll,Except.ok.injEq] at h
    subst h
    exact ⟨rfl,fun _ ha => ha,by simp,fun _ _ ha => ha,rfl⟩
  | cons sql sqls ih =>
    obtain ⟨mid,hmid,hrest⟩ := (runAll_cons Q.engine.toStore).mp h
    obtain ⟨name,hname⟩ := hread sql (by simp)
    have ha := run_ok hmid
    simp only [Sqlite.apply,hname,Option.bind_some] at ha
    have hrep := ih (fun s hs => hread s (List.mem_cons_of_mem _ hs)) hrest
    rw [declare_index_some ha] at hrep
    have hrecords : recordsIn (d.attached ++ [(table,.index name (some sql))]) =
        recordsIn d.attached := by
      rw [recordsIn_append]
      exact List.append_nil _
    refine ⟨hrep.tables,fun a ha => hrep.kept a (List.mem_append_left _ ha),?_,?_,
      hrep.records.trans hrecords⟩
    · intro sql' hsql' name' hname'
      rcases List.mem_cons.mp hsql' with rfl | htail
      · rw [hname] at hname'
        cases hname'
        exact hrep.kept _ (by simp)
      · exact hrep.added sql' htail name' hname'
    · intro t tr htr
      simpa using hrep.triggers t tr htr

end Engine

section Rebuild

variable {R : Pcre} {Q : Sqlite} {d d' : Contents} {table sql : String} {T : Relation}

/-- The first two statements of the rebuild, on names that read as themselves. -/
structure Start (Q : Sqlite) (table sql : String) (d d₁ d₂ : Contents) : Prop where
  created : ∃ decl, Q.read sql = some decl ∧ declare sql d decl = some d₁
  copied : ∃ copy, insertSelect Q.store (tmpTable table) table d₁ = some copy ∧
    d₂ = Q.recorded (tmpTable table) copy

structure Steps (Q : Sqlite) (table sql : String) (d d₁ d₂ d₃ d₄ : Contents) : Prop
    extends Start Q table sql d d₁ d₂ where
  dropped : Relational.dropTable (Q.keys d₂) table d₂ = some d₃
  renamed : Relational.renameTable (Q.relabelTo table) (tmpTable table) table d₃ = some d₄

/-- The text of a table with a double quote in its name declares the table once more. -/
theorem no_quote_of_declared (hwf : WellFormed R Q d) (hT : lookup d.tables table = some T)
    (hsql : strictSql R table (some T.header.sql) = some sql) {decl : Declaration}
    (hread : Q.read sql = some decl) (hdecl : declare sql d decl = some d') :
    '"' ∉ table.toList := by
  intro hq
  obtain ⟨hmem,rfl⟩ := lookup_some hT
  obtain ⟨strict,columns,fks,rfl⟩ := hwf.quoted T hmem hq sql hsql decl hread
  have hfresh := (createTable_some hdecl).1
  rw [hT] at hfresh
  cases hfresh

theorem rebuild_steps (hwf : WellFormed R Q d) (hT : lookup d.tables table = some T)
    (hsql : strictSql R table (some T.header.sql) = some sql) {indexes : List String}
    (h : runAll Q.engine.toStore 1 (rebuildStatements table sql indexes) d = .ok d') :
    ∃ d₁ d₂ d₃ d₄, Start Q table sql d d₁ d₂ ∧
      (Q.fires table d₂ = false → Steps Q table sql d d₁ d₂ d₃ d₄) ∧
      runAll Q.engine.toStore 5 (indexes.map .create) d₄ = .ok d' := by
  simp only [rebuildStatements,List.cons_append,List.nil_append,runAll_cons] at h
  obtain ⟨d₁,h₁,d₂,h₂,d₃,h₃,d₄,h₄,hrest⟩ := h
  have h₁ := run_ok h₁
  have h₂ := run_ok h₂
  have h₃ := run_ok h₃
  have h₄ := run_ok h₄
  simp only [Sqlite.apply,Option.bind_eq_some_iff] at h₁
  obtain ⟨decl,hread,hdecl⟩ := h₁
  have hq := no_quote_of_declared hwf hT hsql hread hdecl
  simp only [Sqlite.apply,unquote_eq hq,unquote_tmpTable hq,bind,Option.bind_some] at h₂ h₃ h₄
  obtain ⟨copy,hcopy,hrecorded⟩ := Option.bind_eq_some_iff.mp h₂
  have hstart : Start Q table sql d d₁ d₂ :=
    ⟨⟨decl,hread,hdecl⟩,copy,hcopy,(Option.some.inj hrecorded).symm⟩
  refine ⟨d₁,d₂,d₃,d₄,hstart,?_,hrest⟩
  intro hsilent
  rw [Sqlite.drop,hsilent,if_neg Bool.false_ne_true] at h₃
  exact ⟨hstart,h₃,h₄⟩

theorem trigger_mem_recorded {name t tr : String}
    (h : (t,Attached.trigger tr) ∈ (Q.recorded name d).attached) :
    (t,Attached.trigger tr) ∈ d.attached := by
  unfold Sqlite.recorded at h
  split at h
  · exact h
  split at h
  · exact h
  · simp only [List.mem_append,List.mem_filter,List.mem_singleton,Prod.mk.injEq,reduceCtorEq,
      and_false,or_false] at h
    exact h.1

theorem recorded_tables (Q : Sqlite) (name : String) (d : Contents) :
    (Q.recorded name d).tables = d.tables ∧ (Q.recorded name d).enforced = d.enforced := by
  unfold Sqlite.recorded
  split
  · exact ⟨rfl,rfl⟩
  split <;> exact ⟨rfl,rfl⟩

theorem hasTrigger_iff {name : String} :
    hasTrigger d name = true ↔ ∃ tr, (name,Attached.trigger tr) ∈ d.attached := by
  simp only [hasTrigger,List.any_eq_true,Bool.and_eq_true,decide_eq_true_eq]
  constructor
  · rintro ⟨⟨t,a⟩,hmem,rfl,ha⟩
    cases a with
    | trigger tr => exact ⟨tr,hmem⟩
    | index name sql => cases ha
    | record r => cases ha
  · rintro ⟨tr,hmem⟩
    exact ⟨_,hmem,rfl,rfl⟩

/-- The table `M` that the text declares under the temporary name, filled from `T`. -/
structure Copied (Q : Sqlite) (table sql : String) (T M : Relation) (d d₂ : Contents) : Prop where
  fresh : lookup d.tables M.name = none
  name : M.name = tmpTable table
  text : M.header.sql = sql
  read : Q.read sql = some (.table M.name M.header.strict M.header.columns M.foreignKeys)
  rows : T.rows.mapM (Q.store {M with rows := []}) = some M.rows
  contents : d₂ = {d with
    tables := d.tables ++ [M]
    attached := d.attached ++ (Q.counter M.header none M.rows).toList.map fun last =>
      (M.name,.record (.counter last))}

variable {d₁ d₂ d₃ d₄ : Contents} {M : Relation}

theorem recorded_fresh (hattached : ∀ a ∈ d.attached, a.1 ≠ M.name)
    (hlookup : lookup d.tables M.name = some M) :
    Q.recorded M.name d = {d with
      attached := d.attached ++ (Q.counter M.header none M.rows).toList.map fun last =>
        (M.name,.record (.counter last))} := by
  have hnone : counterOf M.name d = none := by
    refine List.findSome?_eq_none_iff.mpr ?_
    rintro ⟨t,r⟩ hmem
    have hne : t ≠ M.name := hattached _ (mem_recordsIn.mp hmem)
    cases r with
    | counter last => simp only [hne,if_false]
    | statistics row => rfl
  have hfilter : (d.attached.filter fun a => !isCounterOf M.name a) = d.attached := by
    refine List.filter_eq_self.mpr ?_
    rintro ⟨t,a⟩ hmem
    have hne : t ≠ M.name := hattached _ hmem
    cases a with
    | index name sql => rfl
    | trigger name => rfl
    | record r =>
      cases r with
      | counter last => simp [isCounterOf,hne]
      | statistics row => rfl
  simp only [Sqlite.recorded,hlookup,hnone,hfilter]
  cases Q.counter M.header none M.rows with
  | none => simp
  | some last => rfl

theorem Start.copies (h : Start Q table sql d d₁ d₂) (hwf : WellFormed R Q d)
    (hT : lookup d.tables table = some T) (hfresh : lookup d.tables (tmpTable table) = none) :
    ∃ M, Copied Q table sql T M d d₂ := by
  obtain ⟨decl,hread,hdecl⟩ := h.created
  obtain ⟨copy,hcopied,hd₂⟩ := h.copied
  obtain ⟨N',_,_,hN',_⟩ := insertSelect_some hcopied
  cases decl with
  | index name t =>
    rw [declare_index_some hdecl,hfresh] at hN'
    cases hN'
  | table name strict columns fks =>
    have hd₁ := (createTable_some hdecl).2
    have hname : name = tmpTable table := by
      by_contra hne
      rw [hd₁] at hN'
      simp [lookup_append,hfresh,hne] at hN'
    subst hname
    obtain ⟨_,rfl⟩ := lookup_some hT
    rw [hd₁] at hcopied
    obtain ⟨rows,hrows,hcopy⟩ := rebuild_copy
      (N := ⟨tmpTable T.name,⟨sql,strict,columns⟩,fks,[]⟩) hfresh rfl hT hcopied
    refine ⟨⟨tmpTable T.name,⟨sql,strict,columns⟩,fks,rows⟩,hfresh,rfl,rfl,hread,hrows,?_⟩
    have hattached : ∀ a ∈ copy.attached, a.1 ≠ tmpTable T.name := by
      intro a ha heq
      rw [hcopy] at ha
      have hsome := hwf.attached a ha
      rw [heq,hfresh] at hsome
      cases hsome
    have hlookup : lookup copy.tables (tmpTable T.name) =
        some ⟨tmpTable T.name,⟨sql,strict,columns⟩,fks,rows⟩ := by
      rw [hcopy,lookup_append,hfresh]
      simp
    rw [hd₂,recorded_fresh (M := ⟨tmpTable T.name,⟨sql,strict,columns⟩,fks,rows⟩) hattached
      hlookup,hcopy]

theorem Copied.rows_eq (h : Copied Q table sql T M d d₂) (hwf : WellFormed R Q d)
    (hT : T ∈ d.tables) (hcolumns : M.header.columns = T.header.columns) : M.rows = T.rows := by
  have hid := mapM_some_eq_map (g := id) (fun row hrow row' hrow' =>
    store_some (fun cv hcv => hwf.stored T hT row hrow cv (hcolumns ▸ hcv)) hrow') h.rows
  rw [hid,List.map_id]

theorem Copied.keys (h : Copied Q table sql T M d d₂) : Q.keys d₂ = Q.keys d := by
  have hindexes : indexesOn d₂ = indexesOn d := by
    rw [h.contents,indexesOn,List.filter_append]
    cases Q.counter M.header none M.rows <;> simp [indexesOn,Attached.isIndex]
  rw [Sqlite.keys,hindexes,Sqlite.keys]

theorem Copied.lookup_tmp (h : Copied Q table sql T M d d₂) :
    lookup d₂.tables (tmpTable table) = some M := by
  rw [← h.name,h.contents,lookup_append,h.fresh]
  simp

theorem Copied.lookup_old (h : Copied Q table sql T M d d₂) {n : String} {X : Relation}
    (hX : lookup d.tables n = some X) : lookup d₂.tables n = some X := by
  rw [h.contents,lookup_append,hX]
  rfl

theorem Copied.names (h : Copied Q table sql T M d d₂)
    (hnames : (d.tables.map (fun X => X.name)).Nodup) :
    (d₂.tables.map (fun X => X.name)).Nodup := by
  rw [h.contents,List.map_append,List.nodup_append]
  refine ⟨hnames,by simp,?_⟩
  intro x hx y hy
  obtain ⟨X,hX,rfl⟩ := List.mem_map.mp hx
  simp only [List.map_cons,List.map_nil,List.mem_singleton] at hy
  rw [hy]
  exact lookup_none.mp h.fresh X hX

theorem Copied.unreferenced_iff (h : Copied Q table sql T M d d₂) (hname : M.name ≠ T.name)
    (hrows : M.rows = T.rows) :
    (∀ X ∈ d₂.tables, X.name ≠ T.name → Unreferenced (Q.keys d₂) T X.foreignKeys X.rows) ↔
      NoReferences Q d T M.foreignKeys := by
  have htables : d₂.tables = d.tables ++ [M] := by rw [h.contents]
  simp only [NoReferences,h.keys,htables,List.mem_append,List.mem_singleton]
  constructor
  · intro h
    refine ⟨fun X hX => h X (.inl hX),?_⟩
    rw [← hrows]
    exact h M (.inr rfl) hname
  · rintro ⟨hold,hnew⟩ X (hX | rfl) hne
    · exact hold X hX hne
    · rw [hrows]
      exact hnew

/-- The rows of `X` once the table is dropped. -/
def rowsAfter (Q : Sqlite) (d : Contents) (table : String) (X : Relation) : List (List Value) :=
  if d.enforced then (settleTable (Q.keys d) d.tables table X).rows else X.rows

theorem renamed_header (Q : Sqlite) (X : Relation) (old new : String) :
    (Table.renamed (Q.relabelTo new) old new X).header.strict = X.header.strict ∧
      (Table.renamed (Q.relabelTo new) old new X).header.columns = X.header.columns := by
  by_cases h : X.name = old <;> simp [Table.renamed,Sqlite.relabelTo,h]

theorem Steps.lookups (h : Steps Q table sql d d₁ d₂ d₃ d₄) (hT : lookup d.tables table = some T) :
    lookup d₄.tables (tmpTable table) = none ∧
      (∀ M, lookup d₂.tables (tmpTable table) = some M → ∃ T', lookup d₄.tables table = some T' ∧
        T'.header.strict = M.header.strict ∧ T'.header.columns = M.header.columns ∧
        T'.rows = rowsAfter Q d₂ table M) ∧
      ∀ n X, n ≠ table → n ≠ tmpTable table → lookup d₂.tables n = some X →
        ∃ X', lookup d₄.tables n = some X' ∧ X'.rows = rowsAfter Q d₂ table X := by
  obtain ⟨_,rfl⟩ := lookup_some hT
  obtain ⟨htable,htmp,hother⟩ := rebuild_lookup (Q.keys d₂)
    (N := ⟨tmpTable T.name,⟨"",false,[]⟩,[],[]⟩) (tmpTable_ne T.name) h.dropped h.renamed
  refine ⟨htmp,?_,?_⟩
  · intro M hM
    rw [hM] at htable
    refine ⟨_,htable,?_⟩
    obtain ⟨hstrict,hcolumns⟩ := renamed_header Q
      (if d₂.enforced then settleTable (Q.keys d₂) d₂.tables T.name M else M) (tmpTable T.name) T.name
    refine ⟨hstrict.trans ?_,hcolumns.trans ?_,?_⟩ <;> cases he : d₂.enforced <;>
      simp [rowsAfter,settleTable,Table.renamed,he]
  · intro n X hn htmpn hX
    have hn := hother n hn htmpn
    rw [hX] at hn
    refine ⟨_,hn,?_⟩
    cases he : d₂.enforced <;> simp [rowsAfter,settleTable,Table.renamed,he]

theorem Steps.attached (h : Steps Q table sql d d₁ d₂ d₃ d₄) {a : String × Attached}
    (ha : a ∈ d₄.attached) : ∃ b ∈ d₂.attached, b.1 ≠ table ∧
      a = (rename (tmpTable table) table b.1,b.2) := by
  obtain ⟨_,hd₃⟩ := dropTable_some (Q.keys d₂) h.dropped
  obtain ⟨_,hd₄⟩ := renameTable_some h.renamed
  rw [hd₄,hd₃] at ha
  obtain ⟨b,hb,rfl⟩ := List.mem_map.mp ha
  obtain ⟨hmem,hne⟩ := List.mem_filter.mp hb
  exact ⟨b,hmem,by simpa using hne,rfl⟩

theorem Steps.rowsAfter_iff (h : Steps Q table sql d d₁ d₂ d₃ d₄)
    (hnames : (d₂.tables.map (fun X => X.name)).Nodup) (hT : lookup d₂.tables table = some T) :
    (∀ X ∈ d₂.tables, X.name ≠ table → rowsAfter Q d₂ table X = X.rows) ↔
      d₂.enforced = false ∨
        ∀ X ∈ d₂.tables, X.name ≠ table → Unreferenced (Q.keys d₂) T X.foreignKeys X.rows := by
  obtain ⟨hmem,rfl⟩ := lookup_some hT
  cases he : d₂.enforced with
  | false => simp [rowsAfter,he]
  | true =>
    simp only [rowsAfter,he,if_true,Bool.true_eq_false,false_or]
    exact dropTable_rows_iff (Q.keys d₂) hnames hmem he h.dropped

/-- Every other row survives, those of the copy included, exactly when foreign keys
are off or no row refers to the table. -/
theorem Steps.rowsAfter_copied_iff (h : Steps Q table sql d d₁ d₂ d₃ d₄)
    (hc : Copied Q table sql T M d d₂) (hwf : WellFormed R Q d)
    (hT : lookup d.tables table = some T) (hrows : M.rows = T.rows) :
    (rowsAfter Q d₂ table M = M.rows ∧
        ∀ X ∈ d.tables, X.name ≠ table → rowsAfter Q d₂ table X = X.rows) ↔
      d.enforced = false ∨ NoReferences Q d T M.foreignKeys := by
  have hne : M.name ≠ table := hc.name ▸ tmpTable_ne table
  have hiff := h.rowsAfter_iff (hc.names hwf.names) (hc.lookup_old hT)
  obtain ⟨_,rfl⟩ := lookup_some hT
  rw [hc.unreferenced_iff hne hrows] at hiff
  have henforced : d₂.enforced = d.enforced := by rw [hc.contents]
  rw [← henforced,← hiff]
  constructor
  · rintro ⟨hM,hold⟩ X hX hXne
    rw [hc.contents] at hX
    rcases List.mem_append.mp hX with hX | hX
    · exact hold X hX hXne
    · rw [List.mem_singleton.mp hX]
      exact hM
  · intro hall
    refine ⟨hall M (by simp [hc.contents]) hne,?_⟩
    exact fun X hX => hall X (by simp [hc.contents,hX])

theorem Steps.records (h : Steps Q table sql d d₁ d₂ d₃ d₄) (hc : Copied Q table sql T M d d₂)
    (hwf : WellFormed R Q d) :
    recordsIn d₄.attached = ((recordsIn d.attached).filter fun r => r.1 ≠ table) ++
      ((Q.counter M.header none M.rows).map fun last => (table,Record.counter last)).toList := by
  obtain ⟨_,hd₃⟩ := dropTable_some (Q.keys d₂) h.dropped
  obtain ⟨_,hd₄⟩ := renameTable_some h.renamed
  have hkept : ∀ r ∈ (recordsIn d.attached).filter (fun r => decide (r.1 ≠ table)),
      (rename (tmpTable table) table r.1,r.2) = r := by
    rintro ⟨t,r⟩ hr
    have hsome := hwf.attached _ (mem_recordsIn.mp (List.mem_filter.mp hr).1)
    have hne : t ≠ tmpTable table := by
      rintro rfl
      rw [← hc.name,hc.fresh] at hsome
      cases hsome
    simp only [rename,hne,if_false]
  have hold := (List.map_congr_left hkept).trans (List.map_id _)
  rw [hd₄,recordsIn_rename,hd₃,recordsIn_filter_ne,hc.contents,recordsIn_append,
    List.filter_append,List.map_append,hold]
  congr 1
  cases Q.counter M.header none M.rows with
  | none => rfl
  | some last => simp [recordsIn,hc.name,tmpTable_ne,rename]

theorem Steps.records_iff (h : Steps Q table sql d d₁ d₂ d₃ d₄)
    (hc : Copied Q table sql T M d d₂) (hwf : WellFormed R Q d)
    (hT : lookup d.tables table = some T) (hheader : M.header = ⟨sql,true,T.header.columns⟩)
    (hrows : M.rows = T.rows) :
    (recordsIn d₄.attached).Perm (recordsIn d.attached) ↔
      recordsOf d table = Q.copyCounter sql T := by
  rw [h.records hc hwf,replaced_perm_iff,hheader,hrows,recordsOf,Sqlite.copyCounter,
    (lookup_some hT).2,Option.toList_map]

/-- A trigger attached to the table now would have hung on the temporary table before. -/
theorem Steps.no_trigger (h : Steps Q table sql d d₁ d₂ d₃ d₄) (hc : Copied Q table sql T M d d₂)
    (hwf : WellFormed R Q d) (name : String) : (table,Attached.trigger name) ∉ d₄.attached := by
  intro hmem
  obtain ⟨⟨t,a⟩,hb,hne,heq⟩ := h.attached hmem
  obtain ⟨hfst,rfl⟩ := Prod.mk.inj heq
  have htmp : t = tmpTable table := by
    by_contra ht
    rw [rename,if_neg ht] at hfst
    exact hne hfst.symm
  have hold : (t,Attached.trigger name) ∈ d.attached := by
    rw [hc.contents] at hb
    cases Q.counter M.header none M.rows <;> simpa using hb
  have hsome := hwf.attached _ hold
  rw [htmp,← hc.name,hc.fresh] at hsome
  cases hsome

theorem Steps.safe (h : Steps Q table sql d d₁ d₂ d₃ d₄) (hwf : WellFormed R Q d)
    (hT : lookup d.tables table = some T)
    (hsql : strictSql R table (some T.header.sql) = some sql)
    (hrep : Replayed Q table (indexSqls table d) d₄ d') (hp : Preserved d d' table) :
    Safe R Q d table := by
  obtain ⟨htmp,htable,hother⟩ := h.lookups hT
  rw [← hrep.tables] at htmp htable hother
  -- A table that already had the temporary name would be gone.
  have hfresh : lookup d.tables (tmpTable table) = none := by
    cases hl : lookup d.tables (tmpTable table) with
    | none => rfl
    | some X =>
      obtain ⟨X',hX',_⟩ := hp.others _ X (tmpTable_ne table) hl
      rw [htmp] at hX'
      cases hX'
  obtain ⟨M,hc⟩ := h.copies hwf hT hfresh
  obtain ⟨T₀,T',hT₀,hT',hstrict,hcolumns,hkept⟩ := hp.rebuilt
  rw [hT] at hT₀
  cases hT₀
  obtain ⟨T'',hT'',hstrict',hcolumns',hrows'⟩ := htable M hc.lookup_tmp
  rw [hT'] at hT''
  cases hT''
  have hMstrict : M.header.strict = true := hstrict'.symm.trans hstrict
  have hMcolumns : M.header.columns = T.header.columns := hcolumns'.symm.trans hcolumns
  have hMrows := hc.rows_eq hwf (lookup_some hT).1 hMcolumns
  have hread := hc.read
  rw [hc.name,hMstrict,hMcolumns] at hread
  have hheader : M.header = ⟨sql,true,T.header.columns⟩ := by
    rw [← hc.text,← hMstrict,← hMcolumns]
  have hrecords := hp.records
  rw [hrep.records] at hrecords
  refine ⟨T,sql,M.foreignKeys,hT,hsql,hread,?_,
    (h.records_iff hc hwf hT hheader hMrows).mp hrecords,?_⟩
  · intro name hmem
    exact h.no_trigger hc hwf name (hrep.triggers _ _ (hp.triggers name hmem))
  · refine (h.rowsAfter_copied_iff hc hwf hT hMrows).mp ⟨?_,?_⟩
    · exact (hrows'.symm.trans hkept).trans hMrows.symm
    · intro X hX hne
      have hl := lookup_mem hwf.names hX
      obtain ⟨X₁,hX₁,hr₁⟩ := hp.others X.name X hne hl
      obtain ⟨X₂,hX₂,hr₂⟩ := hother X.name X hne (lookup_none.mp hfresh X hX) (hc.lookup_old hl)
      rw [hX₁] at hX₂
      cases hX₂
      exact hr₂.symm.trans hr₁

theorem Safe.declared (hs : Safe R Q d table) (hT : lookup d.tables table = some T)
    (hsql : strictSql R table (some T.header.sql) = some sql) :
    ∃ fks, Q.read sql = some (.table (tmpTable table) true T.header.columns fks) ∧
      (∀ name, (table,Attached.trigger name) ∉ d.attached) ∧
      recordsOf d table = Q.copyCounter sql T ∧
      (d.enforced = false ∨ NoReferences Q d T fks) := by
  obtain ⟨T₀,sql₀,fks,hT₀,hsql₀,hsafe⟩ := hs
  rw [hT] at hT₀
  cases hT₀
  rw [hsql] at hsql₀
  cases hsql₀
  exact ⟨fks,hsafe⟩

/-- The copy is the table again, under the temporary name and STRICT. -/
theorem Start.copies_of_safe (h : Start Q table sql d d₁ d₂) (hwf : WellFormed R Q d)
    (hT : lookup d.tables table = some T)
    (hsql : strictSql R table (some T.header.sql) = some sql) (hs : Safe R Q d table) :
    ∃ M, Copied Q table sql T M d d₂ ∧ M.header = ⟨sql,true,T.header.columns⟩ ∧
      M.rows = T.rows ∧ (d.enforced = false ∨ NoReferences Q d T M.foreignKeys) := by
  obtain ⟨fks,hread,-,-,hrefs⟩ := hs.declared hT hsql
  have hfresh : lookup d.tables (tmpTable table) = none := by
    obtain ⟨decl,hdecl,hdeclare⟩ := h.created
    rw [hread] at hdecl
    cases hdecl
    exact (createTable_some hdeclare).1
  obtain ⟨M,hc⟩ := h.copies hwf hT hfresh
  have hreadM := hc.read
  rw [hread] at hreadM
  obtain ⟨-,hstrict,hcolumns,hfks⟩ := Declaration.table.inj (Option.some.inj hreadM)
  refine ⟨M,hc,?_,hc.rows_eq hwf (lookup_some hT).1 hcolumns.symm,hfks ▸ hrefs⟩
  rw [← hc.text,hstrict,hcolumns]

theorem Steps.preserved (h : Steps Q table sql d d₁ d₂ d₃ d₄) (hwf : WellFormed R Q d)
    (hT : lookup d.tables table = some T)
    (hsql : strictSql R table (some T.header.sql) = some sql)
    (hrep : Replayed Q table (indexSqls table d) d₄ d') (hs : Safe R Q d table) :
    Preserved d d' table := by
  obtain ⟨M,hc,hheader,hMrows,hrefs⟩ := h.copies_of_safe hwf hT hsql hs
  obtain ⟨-,-,htriggers,hrecords,-⟩ := hs.declared hT hsql
  obtain ⟨hM,hold⟩ := (h.rowsAfter_copied_iff hc hwf hT hMrows).mpr hrefs
  obtain ⟨_,htable,hother⟩ := h.lookups hT
  rw [← hrep.tables] at htable hother
  constructor
  · obtain ⟨T',hT',hstrict,hcolumns,hrows⟩ := htable M hc.lookup_tmp
    rw [hheader] at hstrict hcolumns
    exact ⟨T,T',hT,hT',hstrict,hcolumns,(hrows.trans hM).trans hMrows⟩
  · intro name sql' hmem
    exact hrep.added sql' (mem_indexSqls.mpr ⟨name,hmem⟩) name (hwf.indexes _ _ _ hmem)
  · intro name hmem
    exact absurd hmem (htriggers name)
  · intro name X hne hX
    have hntmp : name ≠ tmpTable table := by
      rintro rfl
      rw [← hc.name,hc.fresh] at hX
      cases hX
    obtain ⟨X',hX',hr⟩ := hother name X hne hntmp (hc.lookup_old hX)
    obtain ⟨hmem,rfl⟩ := lookup_some hX
    exact ⟨X',hX',hr.trans (hold X hmem hne)⟩
  · rw [hrep.records]
    exact (h.records_iff hc hwf hT hheader hMrows).mpr hrecords

theorem enableStrictTable_ok {c : Session Contents}
    (h : (enableStrictTable R Q.engine c table).2 = .ok ()) :
    ∃ T sql db, lookup c.db.tables table = some T ∧
      strictSql R table (some T.header.sql) = some sql ∧
      runAll Q.engine.toStore 1 (rebuildStatements table sql (indexSqls table c.db)) c.db =
        .ok db ∧
      (enableStrictTable R Q.engine c table).1 = ⟨db,none⟩ := by
  cases hp : prechecks Q.engine table c.db with
  | error e => simp [enableStrictTable,hp] at h
  | crash => simp [enableStrictTable,hp] at h
  | ok original =>
    simp only [enableStrictTable,hp] at h ⊢
    obtain ⟨T,hT,rfl⟩ := tableSqls_single (answer_ok (prechecks_ok Q.engine table c.db hp)).symm
    obtain ⟨sql,indexes,db,hsql,hindexes,hrun,hdb⟩ := rebuildAsStrict_ok R Q.engine h
    rw [answer_ok hindexes] at hrun
    exact ⟨T,sql,db,hT,hsql,hrun,hdb⟩

theorem declare_origin {decl : Declaration} (h : declare sql d decl = some d₁) :
    d₁.enforced = d.enforced ∧
    (∀ t tr, (t,Attached.trigger tr) ∈ d₁.attached → (t,Attached.trigger tr) ∈ d.attached) ∧
    ∀ X ∈ d₁.tables, X ∈ d.tables ∨ lookup d.tables X.name = none := by
  cases decl with
  | index name t =>
    rw [declare_index_some h]
    exact ⟨rfl,fun t tr htr => by simpa using htr,fun X hX => .inl hX⟩
  | table name strict columns fks =>
    obtain ⟨hfresh,rfl⟩ := createTable_some h
    refine ⟨rfl,fun t tr htr => htr,?_⟩
    intro X hX
    rcases List.mem_append.mp hX with hX | hX
    · exact .inl hX
    · rw [List.mem_singleton.mp hX]
      exact .inr hfresh

/-- After the first two statements every table has its foreign keys from before, or is new and
has no trigger. -/
theorem Start.origin (h : Start Q table sql d d₁ d₂) :
    d₂.enforced = d.enforced ∧
    (∀ name, hasTrigger d₂ name = true → hasTrigger d name = true) ∧
    ∀ X ∈ d₂.tables, (∃ Y ∈ d.tables, Y.name = X.name ∧ Y.foreignKeys = X.foreignKeys) ∨
      lookup d.tables X.name = none := by
  obtain ⟨decl,-,hdecl⟩ := h.created
  obtain ⟨copy,hcopied,rfl⟩ := h.copied
  obtain ⟨N,_,rows,_,_,_,rfl⟩ := insertSelect_some hcopied
  obtain ⟨htables,henforced⟩ := recorded_tables Q (tmpTable table)
    {d₁ with tables := setRows d₁.tables (tmpTable table) (N.rows ++ rows)}
  obtain ⟨henforced₁,htriggers,horigin⟩ := declare_origin hdecl
  refine ⟨henforced.trans henforced₁,?_,?_⟩
  · intro name hname
    obtain ⟨tr,htr⟩ := hasTrigger_iff.mp hname
    have hcopy := trigger_mem_recorded htr
    exact hasTrigger_iff.mpr ⟨tr,htriggers _ _ hcopy⟩
  · intro X hX
    rw [htables] at hX
    obtain ⟨Y,hY,rfl⟩ := List.mem_map.mp hX
    have hsame : (if Y.name = tmpTable table then {Y with rows := N.rows ++ rows} else Y).name =
        Y.name ∧ (if Y.name = tmpTable table then {Y with rows := N.rows ++ rows} else
          Y).foreignKeys = Y.foreignKeys := by
      split <;> exact ⟨rfl,rfl⟩
    rw [hsame.1,hsame.2]
    rcases horigin Y hY with hold | hfresh
    · exact .inl ⟨Y,hold,rfl,rfl⟩
    · exact .inr hfresh

theorem fires_iff : Q.fires table d = true ↔ d.enforced = true ∧ ∃ X ∈ d.tables,
    hasTrigger d X.name = true ∧ ∃ fk ∈ X.foreignKeys, fk.onDelete.acts = true ∧
      ∃ row ∈ X.rows, meets (Q.keys d) d.tables (lostWith (Q.keys d) d.tables table) fk row =
        true := by
  simp [Sqlite.fires]

theorem Start.not_fires_of_silent (h : Start Q table sql d d₁ d₂) (hwf : WellFormed R Q d)
    (hs : Silent d) : Q.fires table d₂ = false := by
  rw [Bool.eq_false_iff]
  intro hfires
  obtain ⟨henforced,X,hX,htrigger,fk,hfk,hacts,-⟩ := fires_iff.mp hfires
  obtain ⟨hsame,htriggers,horigin⟩ := h.origin
  have hold := htriggers _ htrigger
  rcases horigin X hX with ⟨Y,hY,hname,hfks⟩ | hfresh
  · have hidle := hs (hsame.symm.trans henforced) Y hY (hname ▸ hold) fk (hfks ▸ hfk)
    rw [hidle] at hacts
    cases hacts
  · obtain ⟨tr,htr⟩ := hasTrigger_iff.mp hold
    have hsome := hwf.attached _ htr
    rw [hfresh] at hsome
    cases hsome

/-- Where no row refers to the table, no action reaches a row, and so no trigger runs. -/
theorem Start.not_fires_of_safe (h : Start Q table sql d d₁ d₂) (hwf : WellFormed R Q d)
    (hT : lookup d.tables table = some T)
    (hsql : strictSql R table (some T.header.sql) = some sql) (hs : Safe R Q d table) :
    Q.fires table d₂ = false := by
  obtain ⟨M,hc,-,hMrows,hrefs⟩ := h.copies_of_safe hwf hT hsql hs
  obtain ⟨-,-,htriggers,-,-⟩ := hs.declared hT hsql
  obtain ⟨hmem,hname⟩ := lookup_some (hc.lookup_old hT)
  rw [Bool.eq_false_iff]
  intro hfires
  obtain ⟨henforced,X,hX,htrigger,fk,hfk,-,row,hrow,hmeets⟩ := fires_iff.mp hfires
  obtain ⟨hsame,hkept,-⟩ := h.origin
  have hno : NoReferences Q d T M.foreignKeys := by
    rw [hsame] at henforced
    exact hrefs.resolve_left (by simp [henforced])
  have hXne : X.name ≠ T.name := by
    intro heq
    obtain ⟨tr,htr⟩ := hasTrigger_iff.mp (hkept _ htrigger)
    rw [heq,hname] at htr
    exact htriggers tr htr
  have hMne : M.name ≠ T.name := by
    rw [hc.name,hname]
    exact tmpTable_ne table
  have hall := (hc.unreferenced_iff hMne hMrows).mpr hno
  have hnames := hc.names hwf.names
  have hlost := lost_of_unreferenced (Q.keys d₂) hnames hmem hall (rounds d₂.tables)
  rw [← hname] at hmeets
  rw [lostWith,not_meets_of_unreferenced (Q.keys d₂) hnames hmem hlost (hall X hX hXne) hfk hrow]
    at hmeets
  cases hmeets

end Rebuild

def rebuiltSql : String :=
  "CREATE TABLE \"users_xqlite_strict_rebuild\"(id INTEGER PRIMARY KEY) STRICT"

def usersSqlite : Sqlite := .reading
  [(rebuiltSql,.table "users_xqlite_strict_rebuild" true [⟨"id","INTEGER"⟩] []),
    ("CREATE INDEX by_id ON users(id)",.index "by_id" "users")]

def indexedUsers : Contents :=
  ⟨[users [1,2]],[("users",.index "by_id" (some "CREATE INDEX by_id ON users(id)"))],true⟩

theorem indexedUsers_wellFormed : WellFormed noPcre usersSqlite indexedUsers := by
  refine ⟨by decide,fun _ _ _ _ _ _ => rfl,by decide,?_,?_⟩
  · intro table name sql hmem
    simp only [indexedUsers,List.mem_singleton,Prod.mk.injEq,Attached.index.injEq,
      Option.some.injEq] at hmem
    obtain ⟨rfl,rfl,rfl⟩ := hmem
    rfl
  · intro T hT hq
    simp only [indexedUsers,List.mem_singleton] at hT
    subst hT
    exact absurd hq (by decide)

def orders (ids : List Int) : Relation :=
  ⟨"orders",⟨"CREATE TABLE orders(user_id INTEGER REFERENCES users(id) ON DELETE CASCADE)",false,
    [⟨"user_id","INTEGER"⟩]⟩,[⟨[0],"users",[0],.cascade,[.null]⟩],ids.map fun n => [.integer n]⟩

def usersWithOrders : Contents := ⟨[users [1],orders [1]],[],true⟩

end Xqlite.Strict
