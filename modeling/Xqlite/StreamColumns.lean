import Mathlib.Data.List.Forall2
import Xqlite.StreamResource
set_option autoImplicit false

namespace Xqlite.Stream

theorem lookup_insert_all_of_not_mem {pairs : List (String × Term)} {m : RowMap} {k : String}
    (h : k ∉ pairs.map Prod.fst) :
    (pairs.foldl (fun m p => m.insert p.1 p.2) m).lookup k = m.lookup k := by
  induction pairs generalizing m with
  | nil => rfl
  | cons p pairs ih =>
    simp only [List.map_cons,List.mem_cons,not_or] at h
    rw [List.foldl_cons,ih h.2,Finmap.lookup_insert_of_ne m h.1]

theorem lookup_mapNew_of_mem {pairs : List (String × Term)} (hd : (pairs.map Prod.fst).Nodup)
    {p : String × Term} (hp : p ∈ pairs) : (mapNew pairs).lookup p.1 = some p.2 := by
  unfold mapNew
  generalize (∅ : RowMap) = m
  induction pairs generalizing m with
  | nil => cases hp
  | cons q pairs ih =>
    simp only [List.map_cons,List.nodup_cons] at hd
    rcases List.mem_cons.mp hp with hpq | hp
    · subst hpq
      rw [List.foldl_cons,lookup_insert_all_of_not_mem hd.1,Finmap.lookup_insert]
    · exact ih hd.2 hp _

theorem mem_of_lookup_mapNew {pairs : List (String × Term)} {k : String} {v : Term}
    (h : (mapNew pairs).lookup k = some v) : (k,v) ∈ pairs := by
  unfold mapNew at h
  have hmem : ∀ m : RowMap, (pairs.foldl (fun m p => m.insert p.1 p.2) m).lookup k = some v →
      (k,v) ∈ pairs ∨ m.lookup k = some v := by
    clear h
    induction pairs with
    | nil => exact fun m h => .inr h
    | cons p pairs ih =>
      intro m h
      rcases ih _ h with hp | hp
      · exact .inl (List.mem_cons_of_mem _ hp)
      · by_cases hk : k = p.1
        · subst hk
          rw [Finmap.lookup_insert,Option.some.injEq] at hp
          subst hp
          exact .inl List.mem_cons_self
        · rw [Finmap.lookup_insert_of_ne m hk] at hp
          exact .inr hp
  rcases hmem ∅ h with hp | hp
  · exact hp
  · simp at hp

theorem keys_mapNew (pairs : List (String × Term)) :
    (mapNew pairs).keys = (pairs.map Prod.fst).toFinset := by
  have hkeys : ∀ m : RowMap, (pairs.foldl (fun m p => m.insert p.1 p.2) m).keys =
      m.keys ∪ (pairs.map Prod.fst).toFinset := by
    induction pairs with
    | nil => simp
    | cons p pairs ih =>
      intro m
      rw [List.foldl_cons,ih]
      ext k
      simp only [Finset.mem_union,Finmap.mem_keys,Finmap.mem_insert,List.map_cons,
        List.toFinset_cons,Finset.mem_insert]
      tauto
  rw [mapNew,hkeys ∅,Finmap.keys_empty,Finset.empty_union]

/-- The map files every value under the name of its column, and nothing else. -/
structure RowMatches (names : List String) (values : List Term) (m : RowMap) : Prop where
  size : m.keys.card = names.length
  filed : ∀ p ∈ names.zip values, m.lookup p.1 = some p.2

theorem rowMatches_of_prefix {columns names : List String} {values : List Term}
    (hdistinct : columns.Nodup) (hnames : names <+: columns)
    (hlen : names.length = values.length) :
    RowMatches names values (mapNew (columns.zip values)) := by
  obtain ⟨more,hmore⟩ := hnames
  have hzip : columns.zip values = names.zip values := by
    have happ : (names ++ more).zip (values ++ []) = names.zip values ++ more.zip [] :=
      List.zip_append hlen
    rw [List.append_nil,hmore,List.zip_nil_right,List.append_nil] at happ
    exact happ
  have hfst : (names.zip values).map Prod.fst = names := List.map_fst_zip (by omega)
  have hd : names.Nodup := by
    rw [← hmore] at hdistinct
    exact (List.nodup_append.mp hdistinct).1
  rw [hzip]
  constructor
  · rw [keys_mapNew,hfst,List.toFinset_card_of_nodup hd]
  · intro p hp
    exact lookup_mapNew_of_mem (by rw [hfst]; exact hd) hp

def numberedCells (names : List String) : List Cell :=
  (List.range names.length).map (fun i : Nat => .integer i)

def numberedTerms (names : List String) : List Term :=
  (List.range names.length).map (fun i : Nat => .int i)

theorem prefix_of_rowMatches {columns names : List String}
    (h : RowMatches names (numberedTerms names)
      (mapNew (columns.zip (numberedTerms names)))) : names <+: columns := by
  rw [List.prefix_iff_getElem?]
  intro i hi
  have hget : (names.zip (numberedTerms names))[i]? = some (names[i],.int i) := by
    rw [List.getElem?_zip_eq_some]
    simp [numberedTerms,hi]
  have hfiled := h.filed _ (List.mem_of_getElem? hget)
  obtain ⟨j,hj⟩ := List.mem_iff_getElem?.mp (mem_of_lookup_mapNew hfiled)
  rw [List.getElem?_zip_eq_some] at hj
  have hij : j = i := by
    have hvalue := hj.2
    simp only [numberedTerms,List.getElem?_map,Option.map_eq_some_iff,
      List.getElem?_eq_some_iff,Term.int.injEq] at hvalue
    obtain ⟨n,⟨hlt,hn⟩,hni⟩ := hvalue
    simp only [List.getElem_range] at hn
    omega
  subst hij
  exact hj.1

def Element.row? : Element → Option RowMap
  | .bare row => some row
  | .ok row => some row
  | .error _ => none

def emittedMaps (elements : List Element) : List RowMap := elements.filterMap Element.row?

theorem emittedMaps_shown (maps : List RowMap) (onError : OnError) (last : Ending) :
    emittedMaps (shapeRows maps onError ++ lastElements onError last) = maps := by
  have hlast : (lastElements onError last).filterMap Element.row? = [] := by
    cases last <;> cases onError <;> simp [lastElements,Element.row?]
  have hrows : (shapeRows maps onError).filterMap Element.row? = maps := by
    cases onError <;> simp [shapeRows,List.filterMap_map,Function.comp_def,Element.row?]
  rw [emittedMaps,List.filterMap_append,hlast,hrows,List.append_nil]

def decodeRow (exts : List TypeExtension) (row : List Term) : List Term :=
  row.map (fun value => decodeValue value exts)

theorem mapRowsToMaps_eq (rows : List (List Term)) (columns : List String)
    (exts : List TypeExtension) :
    mapRowsToMaps rows columns exts =
      rows.map (fun row => mapNew (columns.zip (decodeRow exts row))) := by
  cases exts <;> simp [mapRowsToMaps,decodeRows,decodeRow,decodeValue,Function.comp_def]

def shapedScript (shapes : List (List String)) (contents : List (List Cell))
    (stop : StepResult) : List StepResult :=
  List.zipWith .row shapes contents ++ [stop]

theorem executes_shaped {shapes : List (List String)} {contents : List (List Cell)}
    {stop : StepResult} {rows : List (List Term)} {last : Ending}
    (hshapes : List.Forall₂ (fun names cells => names.length = cells.length) shapes contents)
    (h : Executes (shapedScript shapes contents stop) rows last) :
    List.Forall₂ (fun names row => names.length = row.length) shapes rows := by
  induction hshapes generalizing rows with
  | nil =>
    have hlen := congrArg List.length h
    simp only [shapedScript,List.zipWith_nil_left,List.nil_append,List.length_map,
      List.length_append,List.length_singleton] at hlen
    have hnil : rows = [] := List.eq_nil_of_length_eq_zero (by omega)
    rw [hnil]
    exact .nil
  | @cons names cells shapes contents hnames hrest ih =>
    cases rows with
    | nil =>
      obtain ⟨r,hr,-⟩ := executes_nil h
      have hlen := congrArg List.length hr
      simp [shapedScript] at hlen
    | cons row rows =>
      obtain ⟨r,rest,hr,hrow,hexec⟩ := executes_cons h
      simp only [shapedScript,List.zipWith_cons_cons,List.cons_append,List.cons.injEq] at hr
      obtain ⟨hr,hrest⟩ := hr
      subst hr hrest
      refine .cons ?_ (ih hexec)
      cases hcells : sqliteRowToElixirTerms cells with
      | error e => simp [stepTerms,hcells,Except.map] at hrow
      | ok terms =>
        simp only [stepTerms,hcells,Except.map,Except.ok.injEq,Option.some.injEq] at hrow
        rw [hnames,← hrow,sqliteRowToElixirTerms_length hcells]

def EveryMapMatches (shapes : List (List String)) (rows : List (List Term))
    (exts : List TypeExtension) (maps : List RowMap) : Prop :=
  List.Forall₂ (fun p m => RowMatches p.1 (decodeRow exts p.2) m)
    ((shapes.zip rows).take maps.length) maps

theorem everyMapMatches_take {shapes : List (List String)} {rows : List (List Term)}
    {exts : List TypeExtension} {f : List Term → RowMap} (hlen : shapes.length = rows.length)
    (k : Nat) :
    EveryMapMatches shapes rows exts ((rows.take k).map f) ↔
      ∀ p ∈ (shapes.zip rows).take k, RowMatches p.1 (decodeRow exts p.2) (f p.2) := by
  have hsnd : (shapes.zip rows).map Prod.snd = rows := List.map_snd_zip (by omega)
  have hmaps : (rows.take k).map f = ((shapes.zip rows).take k).map (fun p => f p.2) := by
    rw [List.map_take,List.map_take]
    nth_rewrite 1 [← hsnd]
    rw [List.map_map]
    rfl
  have htake : (shapes.zip rows).take ((rows.take k).map f).length =
      (shapes.zip rows).take k := by
    rw [List.length_map,List.length_take,List.take_eq_take_iff,List.length_zip]
    omega
  rw [EveryMapMatches,htake,hmaps,List.forall₂_map_right_iff,List.forall₂_same]

theorem seenRows_eq_take (b : Nat) (rows : List (List Term)) (last : Ending) :
    ∃ k, seenRows b rows last = rows.take k := by
  cases last with
  | ok _ => exact ⟨rows.length,by simp [seenRows]⟩
  | error e => exact ⟨_,rfl⟩

theorem cellsToTerms_integers (i : Nat) (ns : List Nat) :
    cellsToTerms i (ns.map (fun n : Nat => .integer n)) = .ok (ns.map (fun n : Nat => .int n)) := by
  induction ns generalizing i with
  | nil => rfl
  | cons n ns ih => simp [cellsToTerms,cellToTerm,ih,bind,Except.bind,pure,Except.pure]

theorem executes_numbered (shapes : List (List String)) :
    Executes (shapedScript shapes (shapes.map numberedCells) .done)
      (shapes.map numberedTerms) (.ok ()) := by
  induction shapes with
  | nil => rfl
  | cons names shapes ih =>
    have hrow : stepTerms (.row names (numberedCells names)) =
        .ok (some (numberedTerms names)) := by
      simp [stepTerms,sqliteRowToElixirTerms,numberedCells,cellsToTerms_integers,numberedTerms,
        Except.map]
    unfold Executes at ih ⊢
    simp only [shapedScript,List.map_cons,List.zipWith_cons_cons,List.cons_append,hrow]
    rw [← ih]
    rfl

/-- Every map of every enumeration reads its row right exactly when the columns
of each row begin the list of names that was taken when the stream was opened. -/
theorem stream_maps_match_columns_iff {columns : List String} (hdistinct : columns.Nodup)
    (shapes : List (List String)) :
    (∀ (contents : List (List Cell)) (stop : StepResult) (rows : List (List Term))
        (last : Ending) (opts : Opts) (onError : OnError) (b : Nat),
      List.Forall₂ (fun names cells => names.length = cells.length) shapes contents →
      Executes (shapedScript shapes contents stop) rows last →
      validateOnError opts = .ok onError → batchSize opts.batchSize = some b →
      ∃ r, Streamed columns (shapedScript shapes contents stop) opts r ∧
        EveryMapMatches shapes rows opts.typeExtensions (emittedMaps r.elements)) ↔
    ∀ names ∈ shapes, names <+: columns := by
  constructor
  · intro h names hnames
    have hexec := executes_numbered shapes
    have hshapes : List.Forall₂ (fun names cells => names.length = cells.length) shapes
        (shapes.map numberedCells) := by
      rw [List.forall₂_map_right_iff,List.forall₂_same]
      exact fun names _ => by simp [numberedCells]
    obtain ⟨r,hr,hmatch⟩ := h _ _ _ _ {} .raise 500 hshapes hexec rfl rfl
    obtain ⟨acc,hshown⟩ : ∃ acc, Streamed columns _ {} ⟨_,_,acc⟩ :=
      streamed_shows columns hexec rfl rfl
    have hseen : ∀ b, seenRows b (shapes.map numberedTerms) (.ok ()) =
        (shapes.map numberedTerms).take shapes.length := by simp [seenRows]
    rw [streamed_unique hr hshown,emittedMaps_shown,mapRowsToMaps_eq,hseen,
      everyMapMatches_take (by simp),List.take_of_length_le (by simp)] at hmatch
    have hpair : (names,numberedTerms names) ∈ shapes.zip (shapes.map numberedTerms) := by
      obtain ⟨i,hi⟩ := List.mem_iff_getElem?.mp hnames
      refine List.mem_of_getElem? (i := i) ?_
      rw [List.getElem?_zip_eq_some]
      simp [hi]
    have hrow := hmatch _ hpair
    simp only [decodeRow,decodeValue,List.map_id'] at hrow
    exact prefix_of_rowMatches hrow
  · intro hnames contents stop rows last opts onError b hshapes hexec hmode hb
    obtain ⟨acc,hshown⟩ := streamed_shows columns hexec hmode hb
    obtain ⟨k,hk⟩ := seenRows_eq_take b rows last
    have hlengths := executes_shaped hshapes hexec
    refine ⟨_,hshown,?_⟩
    rw [emittedMaps_shown,mapRowsToMaps_eq,hk]
    rw [everyMapMatches_take hlengths.length_eq]
    intro p hmem
    have hp := List.mem_of_mem_take hmem
    have hlen := List.forall₂_zip hlengths hp
    refine rowMatches_of_prefix hdistinct (hnames _ (List.of_mem_zip hp).1) ?_
    simpa [decodeRow] using hlen

theorem stream_maps_match_columns_unchanged :
    ["a","b"].Nodup ∧
      ∃ r, Streamed ["a","b"] (shapedScript [["a","b"]] [[.integer 1,.null]] .done) {} r ∧
        EveryMapMatches [["a","b"]] [[.int 1,.atom "nil"]] [] (emittedMaps r.elements) := by
  have hdistinct : ["a","b"].Nodup := by decide
  have hmatch := (stream_maps_match_columns_iff hdistinct [["a","b"]]).mpr (by decide)
  exact ⟨hdistinct,hmatch [[.integer 1,.null]] .done [[.int 1,.atom "nil"]] (.ok ()) {} .raise
    500 (.cons rfl .nil) rfl rfl rfl⟩

/-- `SELECT *` opened over columns `a` and `b`, stepped after `a` was dropped:
the value of `b` is filed under `a`. -/
theorem stream_map_files_value_under_dropped_column :
    ∃ r, Streamed ["a","b"] (shapedScript [["b"]] [[.integer 7]] .done) {} r ∧
      ∃ m, emittedMaps r.elements = [m] ∧ m.lookup "a" = some (.int 7) ∧ m.lookup "b" = none ∧
        ¬ RowMatches ["b"] [.int 7] m := by
  have hexec : Executes (shapedScript [["b"]] [[.integer 7]] .done) [[.int 7]] (.ok ()) := rfl
  obtain ⟨acc,hshown⟩ : ∃ acc, Streamed ["a","b"] _ {} ⟨_,_,acc⟩ :=
    streamed_shows ["a","b"] hexec rfl rfl
  refine ⟨_,hshown,mapNew [("a",.int 7)],?_,rfl,rfl,?_⟩
  · rw [emittedMaps_shown]
    rfl
  · intro h
    have hfiled := h.filed ("b",.int 7) (by simp)
    cases (rfl : (mapNew [("a",.int 7)]).lookup "b" = none).symm.trans hfiled

end Xqlite.Stream
