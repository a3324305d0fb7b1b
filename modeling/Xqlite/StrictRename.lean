import Xqlite.Lib.QueryText
import Xqlite.StrictText
set_option autoImplicit false

namespace Xqlite.Strict

namespace Stored
variable {name : List Char}

def behind (s : Stored name) : List Char := s.rest ++ ')' :: s.strictEnding

theorem not_mem_oneStrict {tail : List Char} (h : OneStrict tail) {c : Char}
    (hc : isBlank c = false) (hlower : c.toLower ∉ "strict".toList) : c ∉ tail := by
  obtain ⟨blanks,word,hblanks,hword,rfl⟩ := h
  intro hmem
  rcases List.mem_append.mp hmem with hmem | hmem
  · rw [List.all_eq_true.mp hblanks c hmem] at hc
    cases hc
  · refine hlower ?_
    rw [← hword]
    exact List.mem_map_of_mem hmem

theorem strictEnding_oneStrict (s : Stored name) : OneStrict s.strictEnding := by
  unfold strictEnding
  split
  · exact ⟨[' '],"STRICT".toList,by decide,by decide,by decide⟩
  · rename_i htail
    rcases s.ending_ok with hnil | hone
    · rw [hnil] at htail
      exact absurd (show isStrictTail [] = true by decide) htail
    · exact hone

theorem addStrict_text (s : Stored name) :
    addStrict s.text = createTable ++ ' ' :: (s.spelling.chars ++ s.behind) := by
  have hparen : ')' ∉ s.ending := by
    rcases s.ending_ok with hnil | hone
    · rw [hnil]
      exact List.not_mem_nil
    · exact not_mem_oneStrict hone (by decide) (by decide)
  have htext : s.text =
      (createTable ++ ' ' :: (s.spelling.chars ++ s.rest)) ++ ')' :: s.ending := by
    simp [text]
  rw [htext,addStrict_last_paren _ hparen]
  unfold behind strictEnding
  by_cases htail : isStrictTail s.ending = true
  · rw [if_pos htail,if_pos htail]
    simp
  · rw [if_neg htail,if_neg htail]
    simp

theorem behind_head (s : Stored name) :
    (s.behind.head?.any fun c => isWordByte (firstByte c)) = false := by
  unfold behind rest
  cases s.space <;> rfl

end Stored

section Start
variable {name text rest : List Char} {last : Option Char}

theorem Taken.at_start {c : Char} (hc : isBlank c = false)
    (h : Taken name (createTable ++ ' ' :: c :: text) rest last) :
    ∃ spelled, c :: text = spelled ++ rest ∧
      (spelled = '"' :: name ++ ['"'] ∨ spelled = '\x60' :: name ++ ['\x60'] ∨ spelled = name) ∧
      boundary spelled.getLast? rest.head? = true := by
  obtain ⟨blanks,spelled,htext,hne,hblank,hkind,hboundary,-⟩ := h.split
  have hrest : ' ' :: c :: text = blanks ++ (spelled ++ rest) := List.append_cancel_left htext
  refine ⟨spelled,?_,hkind,hboundary⟩
  cases blanks with
  | nil => exact absurd rfl hne
  | cons b blanks =>
    cases blanks with
    | nil => exact (List.cons.inj hrest).2
    | cons b' blanks =>
      have hb : c = b' := (List.cons.inj (List.cons.inj hrest).2).1
      simp only [List.all_cons,Bool.and_eq_true] at hblank
      rw [hb,hblank.2.1] at hc
      cases hc

theorem mark_not_blank {q : Char} (h : IsMark q) : isBlank q = false := by
  rcases h with rfl | rfl <;> rfl

theorem not_taken_quoted {q : Char} (hq : IsMark q)
    (hrest : (text.head?.any fun c => isWordByte (firstByte c)) = false) :
    ¬ Taken name (createTable ++ ' ' :: (quoteName q name ++ text)) rest last := by
  intro h
  have hquote : quoteName q name ++ text = q :: (escapeName q name ++ q :: text) := by
    simp [quoteName]
  rw [hquote] at h
  obtain ⟨spelled,htext,hkind,hboundary⟩ := h.at_start (mark_not_blank hq)
  have hmark : ∀ m, IsMark m → spelled = m :: name ++ [m] → False := by
    intro m hm hspelled
    subst hspelled
    have hqm : q = m := (List.cons.inj htext).1
    subst hqm
    have hname : name ++ q :: rest = escapeName q name ++ q :: text := by
      have htail := (List.cons.inj htext).2
      simpa using htail.symm
    have hlast : (q :: name ++ [q]).getLast? = some q := List.getLast?_concat
    rw [hlast] at hboundary
    rcases QueryText.after_mark hname with hx | hx
    · subst hx
      simp [boundary,(mark_not_word hq).1,hrest] at hboundary
    · rw [hx] at hboundary
      rw [boundary_marks hq (by simp [(mark_not_word hq).1])] at hboundary
      cases hboundary
  rcases hkind with hspelled | hspelled | hspelled
  · exact hmark '"' (.inl rfl) hspelled
  · exact hmark '\x60' (.inr rfl) hspelled
  · subst hspelled
    obtain ⟨hall,hx⟩ := QueryText.eq_marks (n := 0) htext.symm
    have hhead : rest.head? = some q := by
      rw [hx,Nat.zero_add,Nat.add_comm,List.replicate_succ]
      rfl
    have hlast : (spelled.getLast?.any fun c => isWordByte (lastByte c)) = false := by
      cases hl : spelled.getLast? with
      | none => rfl
      | some c =>
        rw [hall c (List.mem_of_getLast? hl)]
        exact (mark_not_word hq).1
    rw [hhead,boundary_marks hq hlast] at hboundary
    cases hboundary

end Start

def renamed (name : List Char) : List Char :=
  createTable ++ ' ' :: '"' :: (name ++ (rebuildSuffix ++ ['"']))

theorem toList_tmpTable (table : String) :
    (tmpTable table).toList = table.toList ++ rebuildSuffix := String.toList_append

theorem toList_renamed (table : String) :
    ("CREATE TABLE \"" ++ tmpTable table ++ "\"").toList = renamed table.toList := by
  rw [String.toList_append,String.toList_append,toList_tmpTable,renamed,List.append_assoc,
    List.append_assoc]
  rfl

theorem quoteName_tmpTable {q : Char} (hq : IsMark q) (table : String) :
    quoteName q (tmpTable table).toList =
      q :: (escapeName q table.toList ++ (rebuildSuffix ++ [q])) := by
  have hsuffix : q ∉ rebuildSuffix := by
    rcases hq with rfl | rfl <;> decide
  rw [quoteName,toList_tmpTable,escapeName_append,escapeName_of_not_mem hsuffix,List.append_assoc]

theorem mark_ne_underscore {q : Char} (h : IsMark q) : q ≠ '_' := by
  rcases h with rfl | rfl <;> decide

theorem rebuildSuffix_eq : ∃ tail, rebuildSuffix = '_' :: tail :=
  ⟨"xqlite_strict_rebuild".toList,by decide⟩

theorem C_mem_createTable : 'C' ∈ createTable := by decide

section Later
variable {name : List Char}

theorem later_fit {text pre post : List Char} (h : createTable ++ ' ' :: text = pre ++ post)
    (hpre : pre ≠ []) (hpost : post.head? = some 'C') :
    ∃ pre', pre = createTable ++ ' ' :: pre' ∧ text = pre' ++ post := by
  have hsplit : (createTable ++ [' ']) ++ text = pre ++ post := by
    rw [List.append_assoc]
    exact h
  rcases List.append_eq_append_iff.mp hsplit with ⟨pre',hpre',htext⟩ | ⟨c,hc,hpost'⟩
  · refine ⟨pre',?_,htext⟩
    rw [hpre',List.append_assoc]
    rfl
  · cases c with
    | nil =>
      refine ⟨[],?_,hpost'.symm⟩
      rw [List.append_nil] at hc
      exact hc.symm
    | cons d c =>
      have hd : d = 'C' := by
        rw [hpost'] at hpost
        simpa using hpost
      subst hd
      cases pre with
      | nil => exact absurd rfl hpre
      | cons p pre =>
        have htail : "REATE TABLE ".toList = pre ++ 'C' :: c := congrArg List.tail hc
        have hmem : 'C' ∈ "REATE TABLE ".toList := by
          rw [htail]
          simp
        exact absurd hmem (by decide)

theorem eq_quotes {name f a b a' b' : List Char} (h : name ++ a = '"' :: f ++ b)
    (h' : name ++ '_' :: a' = f ++ '_' :: b') : ∀ c ∈ name, c = '"' := by
  induction name generalizing f with
  | nil =>
    intro c hc
    cases hc
  | cons c name ih =>
    have hc : c = '"' := (List.cons.inj h).1
    have htail : name ++ a = f ++ b := (List.cons.inj h).2
    cases f with
    | nil =>
      have hunder : c = '_' := (List.cons.inj h').1
      rw [hc] at hunder
      exact absurd hunder (by decide)
    | cons d f =>
      have hd : c = d := (List.cons.inj h').1
      have hquotes := ih (f := f) (by rw [htail,← hd,hc]) (List.cons.inj h').2
      intro x hx
      rcases List.mem_cons.mp hx with hx | hx
      · rw [hx,hc]
      · exact hquotes x hx

theorem Taken.words {q : Char} (hq : IsMark q) {c text rest : List Char} {last : Option Char}
    (h : Taken name (c ++ q :: text) rest last) : ∃ f, c = createTable ++ f := by
  obtain ⟨blanks,spelled,hpost,-⟩ := h.split
  have hqc : q ∉ createTable := by
    rcases hq with rfl | rfl <;> decide
  rcases List.append_eq_append_iff.mp hpost with ⟨a,ha,hqa⟩ | ⟨f,hc,-⟩
  · cases a with
    | nil => exact ⟨[],by rw [ha]; simp⟩
    | cons x a =>
      have hx : q = x := (List.cons.inj hqa).1
      refine absurd ?_ hqc
      rw [ha,hx]
      simp
  · exact ⟨f,hc⟩

theorem same_end {name f a b : List Char} {x y : Char} (hx : x ≠ '_') (hy : y ≠ '_')
    (h : name ++ x :: a = f ++ y :: b) {a' b' : List Char}
    (h' : name ++ '_' :: a' = f ++ '_' :: b') : x = y ∧ a = b := by
  induction name generalizing f with
  | nil =>
    cases f with
    | nil => exact List.cons.inj h
    | cons d f =>
      have hxd : x = d := (List.cons.inj h).1
      have hud : '_' = d := (List.cons.inj h').1
      exact absurd (hxd.trans hud.symm) hx
  | cons c name ih =>
    cases f with
    | nil =>
      have hcy : c = y := (List.cons.inj h).1
      have hcu : c = '_' := (List.cons.inj h').1
      exact absurd (hcy.symm.trans hcu) hy
    | cons d f => exact ih (List.cons.inj h).2 (List.cons.inj h').2

/-- A fit inside the quoted name cannot give the temporary name: the replacement would
have to agree with the rest of the name and then with the suffix. -/
theorem not_fit_inside {q : Char} (hq : IsMark q) {c text rest out y : List Char}
    {last : Option Char} (hsub : ∀ x ∈ c, x ∈ name)
    (hrest : (text.head?.any fun x => isWordByte (firstByte x)) = false)
    (htaken : Taken name (c ++ q :: text) rest last)
    (hout : renamed name ++ out = c ++ (rebuildSuffix ++ q :: y)) : False := by
  obtain ⟨f₀,rfl⟩ := htaken.words hq
  have htarget : ' ' :: '"' :: (name ++ (rebuildSuffix ++ '"' :: out)) =
      f₀ ++ (rebuildSuffix ++ q :: y) := by
    have hwords : createTable ++ ' ' :: '"' :: (name ++ (rebuildSuffix ++ '"' :: out)) =
        createTable ++ (f₀ ++ (rebuildSuffix ++ q :: y)) := by
      simpa [renamed] using hout
    exact List.append_cancel_left hwords
  obtain ⟨tail,htail⟩ := rebuildSuffix_eq
  rw [htail] at htarget
  cases f₀ with
  | nil => exact absurd (List.cons.inj htarget).1 (by decide)
  | cons b f₁ =>
    have hb : ' ' = b := (List.cons.inj htarget).1
    cases f₁ with
    | nil => exact absurd (List.cons.inj (List.cons.inj htarget).2).1 (by decide)
    | cons m f =>
      have hm : '"' = m := (List.cons.inj (List.cons.inj htarget).2).1
      subst hb hm
      have hname := (List.cons.inj (List.cons.inj htarget).2).2
      have htext : createTable ++ ' ' :: '"' :: f ++ q :: text =
          createTable ++ ' ' :: '"' :: (f ++ q :: text) := by simp
      rw [htext] at htaken
      obtain ⟨spelled,hspelled,hkind,hboundary⟩ := htaken.at_start (by decide)
      rcases hkind with rfl | rfl | rfl
      · have hclose : name ++ '"' :: rest = f ++ q :: text := by
          have hcons := (List.cons.inj hspelled).2
          simpa using hcons.symm
        obtain ⟨-,hsame⟩ := same_end (by decide) (mark_ne_underscore hq) hclose hname
        subst hsame
        have hlast : ('"' :: name ++ ['"']).getLast? = some '"' := List.getLast?_concat
        rw [hlast] at hboundary
        simp [boundary,(mark_not_word (.inl rfl : IsMark '"')).1,hrest] at hboundary
      · exact absurd (List.cons.inj hspelled).1 (by decide)
      · have hquotes := eq_quotes hspelled.symm hname
        have hC : 'C' ∈ spelled := hsub 'C' (List.mem_append_left _ C_mem_createTable)
        exact absurd (hquotes 'C' hC) (by decide)

def target (q : Char) (name y : List Char) : List Char :=
  createTable ++ ' ' :: q :: (escapeName q name ++ (rebuildSuffix ++ q :: y))

theorem target_eq {q : Char} (hq : IsMark q) (table : String) (y : List Char) :
    createTable ++ ' ' :: (quoteName q (tmpTable table).toList ++ y) =
      target q table.toList y := by
  rw [quoteName_tmpTable hq,target]
  simp

theorem quoted_ne_target {q q' : Char} (hq : IsMark q) (text y : List Char) :
    createTable ++ ' ' :: (quoteName q name ++ text) ≠ target q' name y := by
  intro h
  obtain ⟨tail,htail⟩ := rebuildSuffix_eq
  have hcons := List.append_cancel_left h
  have hqq : q = q' := (List.cons.inj (List.cons.inj hcons).2).1
  subst hqq
  have hname : escapeName q name ++ [q] ++ text =
      escapeName q name ++ (rebuildSuffix ++ q :: y) := (List.cons.inj (List.cons.inj hcons).2).2
  rw [List.append_assoc] at hname
  have hclose := List.append_cancel_left hname
  rw [htail] at hclose
  exact mark_ne_underscore hq (List.cons.inj hclose).1

theorem Taken.not_at_mark {q : Char} (hq : IsMark q) {text rest : List Char}
    {last : Option Char} (h : Taken name (q :: text) rest last) : False := by
  have hC : q = 'C' := by simpa using h.head
  rcases hq with rfl | rfl <;> exact absurd hC (by decide)

/-- A fit behind the opening mark does not make the target: in front of the closing mark
the target has its suffix. -/
theorem inside_not_target {q : Char} (hq : IsMark q) {text p post rest y out : List Char}
    {last : Option Char}
    (hrest : (text.head?.any fun x => isWordByte (firstByte x)) = false)
    (htaken : Taken name post rest last) (hinside : escapeName q name ++ q :: text = p ++ post)
    (htarget : escapeName q name ++ (rebuildSuffix ++ q :: y) = p ++ (renamed name ++ out)) :
    False := by
  rcases List.append_eq_append_iff.mp hinside with ⟨a,ha,hclose⟩ | ⟨c,hc,hpost⟩
  · cases a with
    | nil =>
      rw [List.nil_append] at hclose
      rw [← hclose] at htaken
      exact htaken.not_at_mark hq
    | cons x a =>
      obtain ⟨tail,htail⟩ := rebuildSuffix_eq
      rw [ha,htail,List.append_assoc] at htarget
      have hx : '_' = x := (List.cons.inj (List.append_cancel_left htarget)).1
      have hqx : q = x := (List.cons.inj hclose).1
      exact mark_ne_underscore hq (hqx.trans hx.symm)
  · subst hpost
    rw [hc,List.append_assoc] at htarget
    have hout := List.append_cancel_left htarget
    refine not_fit_inside hq ?_ hrest htaken hout.symm
    intro x hx
    refine mem_of_mem_escapeName (q := q) ?_
    rw [hc]
    exact List.mem_append_right p hx

theorem quoted_not_rewritten {q q' : Char} (hq : IsMark q) {text : List Char}
    (hrest : (text.head?.any fun x => isWordByte (firstByte x)) = false) (y : List Char) {n : Nat}
    (hn : (createTable ++ ' ' :: (quoteName q name ++ text)).length ≤ n) :
    replaceCreate name (renamed name) n none (createTable ++ ' ' :: (quoteName q name ++ text)) ≠
      target q' name y := by
  intro h
  rcases replaceCreate_cases name (renamed name) n none _ hn with
    ⟨-,hkeep⟩ | ⟨pre,post,rest,last,out,hsplit,hfit,hout⟩
  · rw [hkeep] at h
    exact quoted_ne_target hq text y h
  have htaken := afterCreate_some hfit
  by_cases hpre : pre = []
  · subst hpre
    rw [List.nil_append] at hsplit
    rw [← hsplit] at htaken
    exact not_taken_quoted hq hrest htaken
  -- The first fit is behind the opening mark, which the replacement keeps.
  obtain ⟨pre',hpre',htext⟩ := later_fit hsplit hpre htaken.head
  rw [h,hpre',target,List.append_assoc] at hout
  have hbody : q' :: (escapeName q' name ++ (rebuildSuffix ++ q' :: y)) =
      pre' ++ (renamed name ++ out) := (List.cons.inj (List.append_cancel_left hout)).2
  cases pre' with
  | nil =>
    rw [List.nil_append] at htext
    rw [← htext] at htaken
    exact htaken.not_at_mark hq
  | cons m p =>
    have hm : q = m := (List.cons.inj htext).1
    have hm' : q' = m := (List.cons.inj hbody).1
    subst hm hm'
    have hinside : escapeName q' name ++ q' :: text = p ++ post := by
      have htail := (List.cons.inj htext).2
      simpa using htail
    exact inside_not_target hq hrest htaken hinside (List.cons.inj hbody).2

end Later

section Bare
variable {name text : List Char}

theorem LegalBare.not_mem (h : LegalBare name) {c : Char} (hc : isIdChar c = false) :
    c ∉ name := by
  intro hmem
  rw [h.chars c hmem] at hc
  cases hc

theorem LegalBare.mark_not_mem (h : LegalBare name) {q : Char} (hq : IsMark q) : q ∉ name := by
  rcases hq with rfl | rfl
  · exact h.not_mem rfl
  · exact h.not_mem rfl

theorem idChar_not_blank {c : Char} (h : isIdChar c = true) : isBlank c = false := by
  cases hb : isBlank c with
  | false => rfl
  | true =>
    simp only [isBlank,Bool.or_eq_true,beq_iff_eq] at hb
    rcases hb with ((((rfl | rfl) | rfl) | rfl) | rfl) | rfl <;> cases h

theorem Taken.bare (h : LegalBare name) {rest : List Char} {last : Option Char}
    (hrest : (text.head?.any fun x => isWordByte (firstByte x)) = false)
    (ht : Taken name (createTable ++ ' ' :: (name ++ text)) rest last) :
    (name.getLast?.any fun c => isWordByte (lastByte c)) = true := by
  obtain ⟨c,tail,hname⟩ := List.exists_cons_of_ne_nil h.nonempty
  have hc : c ∈ name := by
    rw [hname]
    exact List.mem_cons_self
  have htext : name ++ text = c :: (tail ++ text) := by
    rw [hname]
    rfl
  rw [htext] at ht
  obtain ⟨spelled,hspelled,hkind,hboundary⟩ := ht.at_start (idChar_not_blank (h.chars c hc))
  have hmark : ∀ m, IsMark m → spelled = m :: name ++ [m] → False := by
    intro m hm heq
    rw [heq] at hspelled
    have hcm : c = m := (List.cons.inj hspelled).1
    exact h.mark_not_mem hm (hcm ▸ hc)
  rcases hkind with heq | heq | heq
  · exact absurd heq (hmark '"' (.inl rfl))
  · exact absurd heq (hmark '\x60' (.inr rfl))
  · rw [← htext,heq] at hspelled
    rw [← List.append_cancel_left hspelled,heq,boundary,hrest] at hboundary
    simpa using hboundary

theorem afterLiteral_none {c d : Char} (h : c ≠ d) (a b : List Char) :
    afterLiteral (c :: a) (d :: b) = none := by
  have hstarts : (c :: a).isPrefixOf (d :: b) = false := by
    simp [List.isPrefixOf,h]
  simp only [afterLiteral,hstarts,Bool.false_and,Bool.false_eq_true,if_false]

theorem afterCreate_bare (h : LegalBare name)
    (hword : (name.getLast?.any fun c => isWordByte (lastByte c)) = true)
    (hrest : (text.head?.any fun x => isWordByte (firstByte x)) = false) :
    afterCreate name none (createTable ++ ' ' :: (name ++ text)) = some (name.getLast?,text) := by
  obtain ⟨c,tail,hname⟩ := List.exists_cons_of_ne_nil h.nonempty
  have hc : c ∈ name := by
    rw [hname]
    exact List.mem_cons_self
  have htext : name ++ text = c :: (tail ++ text) := by
    rw [hname]
    rfl
  have hblank := idChar_not_blank (h.chars c hc)
  have hdrop : (createTable ++ ' ' :: (name ++ text)).drop 12 = ' ' :: (name ++ text) :=
    List.drop_left' (by decide)
  have hcount : ((' ' :: (name ++ text)).takeWhile isBlank).length = 1 := by
    rw [htext]
    simp [show isBlank ' ' = true by decide,hblank]
  have hliteral : afterLiteral name (name ++ text) = some (name.getLast?,text) := by
    have hstarts : name.isPrefixOf (name ++ text) = true :=
      List.isPrefixOf_iff_prefix.mpr (List.prefix_append name text)
    have hboundary : boundary name.getLast? text.head? = true := by
      rw [boundary,hword,hrest]
      rfl
    simp only [afterLiteral,List.drop_left,hstarts,hboundary,Bool.and_self,if_true]
  have hfits : afterName name (name ++ text) = some (name.getLast?,text) := by
    have hne : ∀ m, IsMark m → m ≠ c := by
      intro m hm heq
      exact h.mark_not_mem hm (heq ▸ hc)
    have hdouble : afterLiteral ('"' :: name ++ ['"']) (name ++ text) = none := by
      rw [htext]
      exact afterLiteral_none (hne '"' (.inl rfl)) _ _
    have hback : afterLiteral ('\x60' :: name ++ ['\x60']) (name ++ text) = none := by
      rw [htext]
      exact afterLiteral_none (hne '\x60' (.inr rfl)) _ _
    rw [afterName,hdouble,hback,hliteral]
    rfl
  have hstart : (boundary none (createTable ++ ' ' :: (name ++ text)).head? &&
      "CREATE TABLE".toList.isPrefixOf (createTable ++ ' ' :: (name ++ text))) = true := by
    have hstarts : createTable.isPrefixOf (createTable ++ ' ' :: (name ++ text)) = true :=
      List.isPrefixOf_iff_prefix.mpr (List.prefix_append createTable _)
    rw [show "CREATE TABLE".toList = createTable from rfl,hstarts]
    rfl
  simp only [afterCreate,hstart,if_true,hdrop,hcount,afterBlanks,List.drop_succ_cons,List.drop_zero,
    hfits]
  rfl

theorem bare_ne_target (h : LegalBare name) {q : Char} (hq : IsMark q) (text y : List Char) :
    createTable ++ ' ' :: (name ++ text) ≠ target q name y := by
  intro htarget
  obtain ⟨c,tail,hname⟩ := List.exists_cons_of_ne_nil h.nonempty
  refine h.mark_not_mem hq ?_
  rw [hname] at htarget ⊢
  have hcons := (List.cons.inj (List.append_cancel_left htarget)).2
  rw [← (List.cons.inj hcons).1]
  exact List.mem_cons_self

theorem bare_not_rewritten (h : LegalBare name) {q : Char} (hq : IsMark q)
    (hrest : (text.head?.any fun x => isWordByte (firstByte x)) = false)
    (hword : (name.getLast?.any fun c => isWordByte (lastByte c)) = false) (y : List Char) {n : Nat}
    (hn : (createTable ++ ' ' :: (name ++ text)).length ≤ n) :
    replaceCreate name (renamed name) n none (createTable ++ ' ' :: (name ++ text)) ≠
      target q name y := by
  intro htarget
  obtain ⟨c,tail,hname⟩ := List.exists_cons_of_ne_nil h.nonempty
  have hqc : q ≠ c := by
    intro heq
    refine h.mark_not_mem hq ?_
    rw [heq,hname]
    exact List.mem_cons_self
  have htext : name ++ text = c :: (tail ++ text) := by
    rw [hname]
    rfl
  rcases replaceCreate_cases name (renamed name) n none _ hn with
    ⟨-,hkeep⟩ | ⟨pre,post,rest,last,out,hsplit,hfit,hout⟩
  · rw [hkeep] at htarget
    exact bare_ne_target h hq text y htarget
  have htaken := afterCreate_some hfit
  by_cases hpre : pre = []
  · subst hpre
    rw [List.nil_append] at hsplit
    rw [← hsplit] at htaken
    rw [htaken.bare h hrest] at hword
    cases hword
  obtain ⟨pre',hpre',hbehind⟩ := later_fit hsplit hpre htaken.head
  rw [htarget,hpre',target,List.append_assoc] at hout
  have hbody : q :: (escapeName q name ++ (rebuildSuffix ++ q :: y)) =
      pre' ++ (renamed name ++ out) := (List.cons.inj (List.append_cancel_left hout)).2
  cases pre' with
  | nil =>
    have hC : q = 'C' := (List.cons.inj hbody).1
    rcases hq with rfl | rfl <;> exact absurd hC (by decide)
  | cons m p =>
    rw [htext] at hbehind
    have hcm : c = m := (List.cons.inj hbehind).1
    have hqm : q = m := (List.cons.inj hbody).1
    exact hqc (hqm.trans hcm.symm)

theorem paren_not_mem_renamed (h : LegalBare name) : ')' ∉ renamed name := by
  have hname : ')' ∉ name := h.not_mem rfl
  have hcreate : ')' ∉ createTable := by decide
  have hsuffix : ')' ∉ rebuildSuffix := by decide
  simp [renamed,hname,hcreate,hsuffix]

theorem not_taken_option {tail pre post rest : List Char} {last : Option Char}
    (h : OneStrict tail) (hsplit : tail = pre ++ post) : ¬ Taken name post rest last := by
  intro htaken
  obtain ⟨more,spelled,hpost,-⟩ := htaken.split
  refine Stored.not_mem_oneStrict h (c := 'B') (by decide) (by decide) ?_
  rw [hsplit,hpost]
  exact List.mem_append_right _ (List.mem_append_left _ (by decide))

theorem not_taken_renamed (h : LegalBare name) {y rest : List Char} {last : Option Char} :
    ¬ Taken name (renamed name ++ y) rest last := by
  intro htaken
  have htext : renamed name ++ y =
      createTable ++ ' ' :: '"' :: (name ++ (rebuildSuffix ++ '"' :: y)) := by
    simp [renamed]
  rw [htext] at htaken
  obtain ⟨spelled,hspelled,hkind,-⟩ := htaken.at_start (by decide)
  rcases hkind with rfl | rfl | rfl
  · obtain ⟨tail,htail⟩ := rebuildSuffix_eq
    rw [htail] at hspelled
    have hname : name ++ ('_' :: tail ++ '"' :: y) = name ++ ['"'] ++ rest :=
      (List.cons.inj hspelled).2
    rw [List.append_assoc] at hname
    exact absurd (List.cons.inj (List.append_cancel_left hname)).1 (by decide)
  · exact absurd (List.cons.inj hspelled).1 (by decide)
  · obtain ⟨c,tail,hname⟩ := List.exists_cons_of_ne_nil h.nonempty
    have hquote : '"' ∈ spelled := by
      rw [hname] at hspelled ⊢
      rw [(List.cons.inj hspelled).1]
      exact List.mem_cons_self
    exact h.mark_not_mem (.inl rfl) hquote

theorem second_fit_changes (h : LegalBare name) {e body tail pre post rest out : List Char}
    {last : Option Char} (he : OneStrict e) (hsplit : body ++ ')' :: e = pre ++ post)
    (htaken : Taken name post rest last) :
    pre ++ (renamed name ++ out) ≠ body ++ ')' :: tail := by
  intro hout
  rcases List.append_eq_append_iff.mp hsplit with ⟨a,ha,hclose⟩ | ⟨c,hc,hpost⟩
  · cases a with
    | nil =>
      have hhead := htaken.head
      rw [List.nil_append] at hclose
      rw [← hclose] at hhead
      cases hhead
    | cons x a => exact not_taken_option he (List.cons.inj hclose).2 htaken
  · rw [hc,List.append_assoc] at hout
    have hnew := List.append_cancel_left hout
    rcases List.append_eq_append_iff.mp hnew with ⟨f,hf,-⟩ | ⟨f,hf,hparen⟩
    · rw [hpost,hf,List.append_assoc] at htaken
      exact not_taken_renamed h htaken
    · cases f with
      | nil =>
        rw [List.append_nil] at hf
        rw [hpost,← hf] at htaken
        exact not_taken_renamed h htaken
      | cons x f =>
        have hx : ')' = x := (List.cons.inj hparen).1
        refine paren_not_mem_renamed h ?_
        rw [hf,← hx]
        simp

end Bare

section Anchored
variable {name text rest : List Char} {before last : Option Char}

/-- A pattern with `$` in it fits only at the end of the text. -/
theorem afterAnchored_some {pattern : List Char}
    (h : afterAnchored pattern before text = some (last,rest)) :
    ∃ eaten, text = eaten ++ rest ∧ (∀ c ∈ eaten, c ∈ pattern) ∧
      ('$' ∈ pattern → rest.length ≤ 1) := by
  induction pattern generalizing before text with
  | nil =>
    rw [afterAnchored] at h
    split at h
    · cases h
      exact ⟨[],rfl,by simp,by simp⟩
    · cases h
  | cons p pattern ih =>
    unfold afterAnchored at h
    split at h
    · split at h
      · rename_i hend
        obtain ⟨eaten,htext,hall,-⟩ := ih h
        refine ⟨eaten,htext,fun c hc => List.mem_cons_of_mem p (hall c hc),fun _ => ?_⟩
        have hlength : text.length ≤ 1 := by
          rcases hend with rfl | rfl
          · exact Nat.zero_le 1
          · exact Nat.le_refl 1
        rw [htext,List.length_append] at hlength
        omega
      · cases h
    · rename_i hp
      cases text with
      | nil => cases h
      | cons c text =>
        simp only at h
        split at h
        · rename_i hc
          obtain ⟨eaten,htext,hall,hdollar⟩ := ih h
          refine ⟨c :: eaten,by rw [htext]; rfl,?_,?_⟩
          · intro d hd
            rcases List.mem_cons.mp hd with hd | hd
            · rw [hd,hc]
              exact List.mem_cons_self
            · exact List.mem_cons_of_mem p (hall d hd)
          · intro hd
            rcases List.mem_cons.mp hd with hd | hd
            · exact absurd hd.symm hp
            · exact hdollar hd
        · cases h

theorem anchoredName_some (hdollar : '$' ∈ name) (hparen : ')' ∉ name)
    (h : anchoredName name before text = some (last,rest)) :
    ∃ eaten, text = eaten ++ rest ∧ ')' ∉ eaten ∧ rest.length ≤ 1 := by
  have hpattern : ∀ pattern, '$' ∈ pattern → ')' ∉ pattern →
      afterAnchored pattern before text = some (last,rest) →
      ∃ eaten, text = eaten ++ rest ∧ ')' ∉ eaten ∧ rest.length ≤ 1 := by
    intro pattern hd hp hsome
    obtain ⟨eaten,htext,hall,hlength⟩ := afterAnchored_some hsome
    exact ⟨eaten,htext,fun hmem => hp (hall _ hmem),hlength hd⟩
  rcases Option.or_eq_some_iff.mp h with h | ⟨-,h⟩
  · exact hpattern _ (by simp [hdollar]) (by simp [hparen]) h
  · rcases Option.or_eq_some_iff.mp h with h | ⟨-,h⟩
    · exact hpattern _ (by simp [hdollar]) (by simp [hparen]) h
    · exact hpattern _ hdollar hparen h

theorem anchoredBlanks_some {blanks : Nat}
    (h : anchoredBlanks name text blanks = some (last,rest)) :
    ∃ k before, k < blanks ∧ anchoredName name before (text.drop (k+1)) = some (last,rest) := by
  induction blanks with
  | zero => cases h
  | succ k ih =>
    rcases Option.or_eq_some_iff.mp h with h | ⟨-,h⟩
    · exact ⟨k,_,Nat.lt_succ_self k,h⟩
    · obtain ⟨j,b,hj,hname⟩ := ih h
      exact ⟨j,b,Nat.lt_succ_of_lt hj,hname⟩

theorem anchoredCreate_some (hdollar : '$' ∈ name) (hparen : ')' ∉ name)
    (h : anchoredCreate name before text = some (last,rest)) :
    ∃ eaten, text = createTable ++ eaten ++ rest ∧ ')' ∉ eaten ∧ rest.length ≤ 1 := by
  unfold anchoredCreate at h
  split at h
  · rename_i hcond
    obtain ⟨-,hcreate⟩ := Bool.and_eq_true_iff.mp hcond
    obtain ⟨tail,htail⟩ := List.isPrefixOf_iff_prefix.mp hcreate
    have hdrop : text.drop 12 = tail := by
      rw [← htail]
      exact List.drop_left' (by decide)
    rw [hdrop] at h
    obtain ⟨k,b,hk,hname⟩ := anchoredBlanks_some h
    obtain ⟨eaten,heaten,hno,hlength⟩ := anchoredName_some hdollar hparen hname
    obtain ⟨hblank,-⟩ := take_blanks hk
    refine ⟨tail.take (k+1) ++ eaten,?_,?_,hlength⟩
    · rw [List.append_assoc,List.append_assoc,← heaten,List.take_append_drop,htail]
    · intro hmem
      rcases List.mem_append.mp hmem with hmem | hmem
      · exact absurd (List.all_eq_true.mp hblank _ hmem) (by decide)
      · exact hno hmem
  · cases h

theorem oneStrict_length {tail : List Char} (h : OneStrict tail) : 6 ≤ tail.length := by
  obtain ⟨blanks,word,-,hword,rfl⟩ := h
  have hlength : word.length = 6 := by
    have hmap := congrArg List.length hword
    rw [List.length_map] at hmap
    exact hmap
  rw [List.length_append]
  omega

theorem anchoredCreate_none (hdollar : '$' ∈ name) (hparen : ')' ∉ name)
    {body tail pre post : List Char} (htail : OneStrict tail)
    (hsplit : body ++ ')' :: tail = pre ++ post) : anchoredCreate name before post = none := by
  cases hfit : anchoredCreate name before post with
  | none => rfl
  | some found =>
    obtain ⟨last,rest⟩ := found
    obtain ⟨eaten,hpost,hno,hlength⟩ := anchoredCreate_some hdollar hparen hfit
    have hlong := oneStrict_length htail
    have hfront : ')' ∉ createTable ++ eaten := by
      intro hmem
      rcases List.mem_append.mp hmem with hmem | hmem
      · exact absurd hmem (by decide)
      · exact hno hmem
    have hinside : ∀ c, post = c ++ ')' :: tail → False := by
      intro c hc
      rcases List.append_eq_append_iff.mp (hpost.symm.trans hc) with ⟨a,-,ha⟩ | ⟨f,hf,hclose⟩
      · rw [ha,List.length_append,List.length_cons] at hlength
        omega
      · cases f with
        | nil =>
          rw [List.nil_append] at hclose
          rw [← hclose,List.length_cons] at hlength
          omega
        | cons x f =>
          have hx : ')' = x := (List.cons.inj hclose).1
          refine hfront ?_
          rw [hf,← hx]
          simp
    rcases List.append_eq_append_iff.mp hsplit with ⟨a,-,hclose⟩ | ⟨c,-,hc⟩
    · cases a with
      | nil => exact (hinside [] hclose.symm).elim
      | cons x a =>
        have hoption : tail = a ++ post := (List.cons.inj hclose).2
        refine absurd ?_ (Stored.not_mem_oneStrict htail (c := 'B') (by decide) (by decide))
        rw [hoption,hpost,List.append_assoc]
        exact List.mem_append_right _ (List.mem_append_left _ (by decide))
    · exact (hinside c hc).elim

theorem replaceAnchored_keep {new : List Char} (n : Nat)
    (h : ∀ pre post b, text = pre ++ post → anchoredCreate name b post = none) :
    replaceAnchored name new n before text = text := by
  induction n generalizing before text with
  | zero => rfl
  | succ n ih =>
    cases text with
    | nil => rfl
    | cons c text =>
      rw [replaceAnchored,h [] (c :: text) before rfl]
      refine congrArg (c :: ·) (ih ?_)
      intro pre post b hsplit
      exact h (c :: pre) post b (by rw [hsplit]; rfl)

end Anchored

/-- The name is bare, ends in a word character of the pattern's tables, has no `$`, and the
pattern does not fit again behind it. -/
structure Reached (table : String) (s : Stored table.toList) : Prop where
  bare : ∃ h, s.spelling = .bare h
  dollar : '$' ∉ table.toList
  word : (table.toList.getLast?.any fun c => isWordByte (lastByte c)) = true
  once : ¬ Mentions table.toList table.toList.getLast? s.behind

theorem isLiteral_of_plain {table : String} (h : isPlain table = true) :
    isLiteral table = true ↔ '$' ∉ table.toList := by
  unfold isPlain at h
  unfold isLiteral
  rw [List.all_eq_true] at h ⊢
  constructor
  · intro hall hmem
    exact absurd (hall '$' hmem) (by decide)
  · intro hdollar c hc
    have hplain := h c hc
    have hne : (c == '$') = false := by
      rw [beq_eq_false_iff_ne]
      intro heq
      exact hdollar (heq ▸ hc)
    rwa [hne,Bool.false_or] at hplain

theorem LegalBare.isPlain {table : String} (h : LegalBare table.toList) : isPlain table = true := by
  unfold Strict.isPlain
  rw [List.all_eq_true]
  intro c hc
  have hid := h.chars c hc
  cases hspecial : "\\^$.[]|()?*+\x7b\x7d".toList.contains c with
  | false => simp
  | true =>
    have hmem : c ∈ "\\^$.[]|()?*+\x7b\x7d".toList := by simpa using hspecial
    have hlist : "\\^$.[]|()?*+\x7b\x7d".toList =
        ['\\','^','$','.','[',']','|','(',')','?','*','+','\x7b','\x7d'] := by decide
    rw [hlist] at hmem
    simp only [List.mem_cons,List.not_mem_nil,or_false] at hmem
    rcases hmem with rfl | rfl | rfl | rfl | rfl | rfl | rfl | rfl | rfl | rfl | rfl | rfl | rfl |
      rfl <;> first | rfl | cases hid

section Rename
variable {R : Pcre} {table : String} (s : Stored table.toList)

theorem strictSql_text :
    strictSql R table (some (String.ofList s.text)) =
      renameCreate R table (createTable ++ ' ' :: (s.spelling.chars ++ s.behind)) := by
  rw [strictSql,String.toList_ofList,s.addStrict_text]

theorem renameCreate_literal (h : isLiteral table = true) (text : List Char) :
    renameCreate R table text = some (String.ofList
      (replaceCreate table.toList (renamed table.toList) text.length none text)) := by
  simp only [renameCreate,h,if_true,toList_renamed]

theorem rewritten_iff {text : List Char} :
    Rewritten table s (some (String.ofList text)) ↔
      ∃ q tail, IsMark q ∧ OneStrict tail ∧
        text = target q table.toList (s.rest ++ ')' :: tail) := by
  unfold Rewritten
  constructor
  · intro ⟨q,tail,hq,htail,h⟩
    refine ⟨q,tail,hq,htail,?_⟩
    rw [← target_eq hq]
    exact String.ofList_injective (Option.some.inj h)
  · intro ⟨q,tail,hq,htail,h⟩
    refine ⟨q,tail,hq,htail,?_⟩
    rw [h,target_eq hq]

theorem replaceCreate_bare {name text : List Char} (h : LegalBare name)
    (hword : (name.getLast?.any fun c => isWordByte (lastByte c)) = true)
    (hrest : (text.head?.any fun x => isWordByte (firstByte x)) = false) (new : List Char) :
    ∃ n, text.length ≤ n ∧
      replaceCreate name new (createTable ++ ' ' :: (name ++ text)).length none
          (createTable ++ ' ' :: (name ++ text)) =
        new ++ replaceCreate name new n name.getLast? text := by
  have hfit := afterCreate_bare h hword hrest
  obtain ⟨words,hwords⟩ : ∃ words, createTable = 'C' :: words := ⟨"REATE TABLE".toList,rfl⟩
  rw [hwords,List.cons_append] at hfit ⊢
  refine ⟨(words ++ ' ' :: (name ++ text)).length,?_,?_⟩
  · simp only [List.length_append,List.length_cons]
    omega
  · rw [List.length_cons,replaceCreate,hfit]

theorem renamed_append {name : List Char} (h : LegalBare name) (y : List Char) :
    renamed name ++ y = target '"' name y := by
  rw [target,escapeName_of_not_mem (h.mark_not_mem (.inl rfl)),renamed]
  simp

theorem target_bare_inj {name : List Char} {q : Char} (h : LegalBare name) {y z : List Char}
    (heq : renamed name ++ y = target q name z) : y = z := by
  rw [renamed_append h,target,target] at heq
  have hcons := (List.cons.inj (List.append_cancel_left heq)).2
  have hq : '"' = q := (List.cons.inj hcons).1
  subst hq
  have hname := List.append_cancel_left (List.cons.inj hcons).2
  exact (List.cons.inj (List.append_cancel_left hname)).2

theorem reached_rewritten (h : Reached table s) :
    Rewritten table s (strictSql R table (some (String.ofList s.text))) := by
  obtain ⟨hbare,hspelling⟩ := h.bare
  have hliteral := (isLiteral_of_plain hbare.isPlain).mpr h.dollar
  have hchars : s.spelling.chars = table.toList := by rw [hspelling]; rfl
  obtain ⟨n,hn,hreplace⟩ := replaceCreate_bare hbare h.word s.behind_head (renamed table.toList)
  rw [strictSql_text,hchars,renameCreate_literal hliteral,hreplace,rewritten_iff]
  refine ⟨'"',s.strictEnding,.inl rfl,s.strictEnding_oneStrict,?_⟩
  rcases replaceCreate_cases table.toList (renamed table.toList) n _ s.behind hn with
    ⟨-,hkeep⟩ | ⟨pre,post,rest,last,out,hsplit,hfit,-⟩
  · rw [hkeep,renamed_append hbare]
    rfl
  · refine absurd ⟨pre,post,hsplit,?_⟩ h.once
    rw [hfit]
    rfl

/-- A `$` in the name is an anchor of the pattern, which then fits nowhere. -/
theorem dollar_not_rewritten (hR : R.Anchors) (hplain : isPlain table = true)
    (hdollar : '$' ∈ table.toList) :
    ¬ Rewritten table s (strictSql R table (some (String.ofList s.text))) := by
  have hliteral : isLiteral table = false := by
    rw [← Bool.not_eq_true,isLiteral_of_plain hplain]
    exact fun h => h hdollar
  have hparen : ')' ∉ table.toList := by
    intro hmem
    exact absurd (List.all_eq_true.mp hplain _ hmem) (by decide)
  have hkeep : renameCreate R table (createTable ++ ' ' :: (s.spelling.chars ++ s.behind)) =
      some (String.ofList (createTable ++ ' ' :: (s.spelling.chars ++ s.behind))) := by
    simp only [renameCreate,hliteral,Bool.false_eq_true,if_false,hR _ _ _ hplain hliteral,
      String.toList_ofList]
    rw [replaceAnchored_keep]
    intro pre post b hsplit
    have hparens : createTable ++ ' ' :: (s.spelling.chars ++ s.rest) ++ ')' :: s.strictEnding =
        pre ++ post := by
      rw [← hsplit,Stored.behind]
      simp
    exact anchoredCreate_none hdollar hparen s.strictEnding_oneStrict hparens
  rw [strictSql_text,hkeep,rewritten_iff]
  intro hrewritten
  obtain ⟨q,tail,hq,-,htext⟩ := hrewritten
  cases hspelling : s.spelling with
  | quoted m hm =>
    rw [hspelling] at htext
    exact quoted_ne_target hm _ _ htext
  | bare hbare =>
    rw [hspelling] at htext
    exact bare_ne_target hbare hq _ _ htext

/-- For a name without other pattern characters nothing but `Reached` is rewritten. -/
theorem rewritten_reached (hR : R.Anchors) (hplain : isPlain table = true)
    (h : Rewritten table s (strictSql R table (some (String.ofList s.text)))) :
    Reached table s := by
  by_cases hdollar : '$' ∈ table.toList
  · exact absurd h (dollar_not_rewritten s hR hplain hdollar)
  have hliteral := (isLiteral_of_plain hplain).mpr hdollar
  rw [strictSql_text,renameCreate_literal hliteral,rewritten_iff] at h
  obtain ⟨q,tail,hq,htail,htext⟩ := h
  cases hspelling : s.spelling with
  | quoted m hm =>
    rw [hspelling] at htext
    exact absurd htext (quoted_not_rewritten hm s.behind_head _ (Nat.le_refl _))
  | bare hbare =>
    rw [hspelling] at htext
    simp only [Spelling.chars] at htext
    cases hword : table.toList.getLast?.any fun c => isWordByte (lastByte c) with
    | false =>
      exact absurd htext (bare_not_rewritten hbare hq s.behind_head hword _ (Nat.le_refl _))
    | true =>
      obtain ⟨n,hn,hreplace⟩ := replaceCreate_bare hbare hword s.behind_head (renamed table.toList)
      rw [hreplace] at htext
      have hbehind := target_bare_inj hbare htext
      rcases replaceCreate_cases table.toList (renamed table.toList) n _ s.behind hn with
        ⟨honce,-⟩ | ⟨pre,post,rest,last,out,hsplit,hfit,hout⟩
      · exact ⟨⟨hbare,hspelling⟩,hdollar,hword,honce⟩
      · rw [hout] at hbehind
        exact absurd hbehind (second_fit_changes hbare s.strictEnding_oneStrict hsplit
          (afterCreate_some hfit))

end Rename

/-- The rename is made for a bare name that the pattern reaches once, and, among the names
without other pattern characters than `$`, for no other spelling. -/
theorem strict_rename_iff (R : Pcre) (hR : R.Anchors) (table : String) (s : Stored table.toList) :
    (Reached table s → Rewritten table s (strictSql R table (some (String.ofList s.text)))) ∧
    (isPlain table = true →
      Rewritten table s (strictSql R table (some (String.ofList s.text))) → Reached table s) :=
  ⟨reached_rewritten s,rewritten_reached s hR⟩

theorem not_mentions {name text : List Char} {before : Option Char} (h : 'B' ∉ text) :
    ¬ Mentions name before text := by
  intro ⟨pre,post,hsplit,hsome⟩
  obtain ⟨⟨last,rest⟩,hfit⟩ := Option.isSome_iff_exists.mp hsome
  obtain ⟨blanks,spelled,hpost,-⟩ := (afterCreate_some hfit).split
  refine h ?_
  rw [hsplit,hpost]
  exact List.mem_append_right _ (List.mem_append_left _ (by decide))

def anchoredPcre : Pcre :=
  ⟨fun table new text => some (String.ofList
    (replaceAnchored table.toList new.toList text.toList.length none text.toList))⟩

theorem anchoredPcre_anchors : anchoredPcre.Anchors := fun _ _ _ _ _ => rfl

theorem users_bare : LegalBare "users".toList := by
  refine ⟨?_,by decide⟩
  intro c hc
  have hall : "users".toList.all isIdChar = true := by decide
  exact List.all_eq_true.mp hall c hc

def bareUsers : Stored "users".toList := ⟨.bare users_bare,false,"id INTEGER".toList,[],.inl rfl⟩

/-- `CREATE TABLE "users" (id INTEGER) STRICT`, as a rename leaves it behind. -/
def quotedUsers : Stored "users".toList :=
  ⟨.quoted '"' (.inl rfl),true,"id INTEGER".toList," STRICT".toList,
    .inr ⟨[' '],"STRICT".toList,by decide,by decide,by decide⟩⟩

theorem bareUsers_reached : Reached "users" bareUsers :=
  ⟨⟨users_bare,rfl⟩,by decide,by decide,not_mentions (by decide)⟩

theorem strict_rename_users :
    isPlain "users" = true ∧
      Rewritten "users" bareUsers
        (strictSql anchoredPcre "users" (some (String.ofList bareUsers.text))) :=
  ⟨by decide,(strict_rename_iff anchoredPcre anchoredPcre_anchors "users" bareUsers).1
    bareUsers_reached⟩

/-- The quoted spelling is executed as it stands. -/
theorem strict_rename_quoted :
    String.ofList quotedUsers.text = "CREATE TABLE \"users\" (id INTEGER) STRICT" ∧
    strictSql anchoredPcre "users" (some "CREATE TABLE \"users\" (id INTEGER) STRICT") =
      some "CREATE TABLE \"users\" (id INTEGER) STRICT" ∧
    ¬ Rewritten "users" quotedUsers
      (strictSql anchoredPcre "users" (some (String.ofList quotedUsers.text))) := by
  refine ⟨by decide,by decide,?_⟩
  intro h
  obtain ⟨hbare,hspelling⟩ := (rewritten_reached _ anchoredPcre_anchors (by decide) h).bare
  cases hspelling

end Xqlite.Strict
