import Mathlib.Data.List.Basic
set_option autoImplicit false

/-! SQL text with names put between quotes exactly as they are spelled: how SQLite cuts
the text into tokens, and when they are the tokens that the writer had in mind. The
tokens are words, quoted tokens, commas and parentheses; any other text is refused. -/

namespace QueryText

section Marks
variable {α : Type} [DecidableEq α] {q : α}

def escape (q : α) (name : List α) : List α := name.flatMap fun c => if c = q then [q,q] else [c]

theorem escape_cons_self (name : List α) : escape q (q :: name) = q :: q :: escape q name := by
  simp [escape]

theorem escape_cons_ne {c : α} (h : c ≠ q) (name : List α) :
    escape q (c :: name) = c :: escape q name := by
  simp [escape,h]

theorem mem_escape {z : α} (hz : z ≠ q) (name : List α) : z ∈ escape q name ↔ z ∈ name := by
  induction name with
  | nil => exact Iff.rfl
  | cons c name ih =>
    by_cases hc : c = q
    · subst hc
      simp [escape_cons_self,hz,ih]
    · rw [escape_cons_ne hc,List.mem_cons,List.mem_cons,ih]

theorem takeWhile_escape {z : α} (hz : z ≠ q) {name : List α} (h : z ∈ name) (rest : List α) :
    (escape q name ++ rest).takeWhile (· != z) = escape q (name.takeWhile (· != z)) := by
  induction name with
  | nil => cases h
  | cons c name ih =>
    by_cases hcz : c = z
    · subst hcz
      rw [escape_cons_ne hz]
      simp [show escape q ([] : List α) = [] from rfl]
    · have hname : z ∈ name := by simpa [Ne.symm hcz] using h
      by_cases hc : c = q
      · subst hc
        simp [escape_cons_self,hcz,ih hname]
      · simp [escape_cons_ne hc,hcz,ih hname]

theorem escape_injective {name name' : List α} (h : escape q name = escape q name') :
    name = name' := by
  induction name generalizing name' with
  | nil =>
    cases name' with
    | nil => rfl
    | cons d name' =>
      by_cases hd : d = q
      · subst hd
        rw [escape_cons_self] at h
        cases h
      · rw [escape_cons_ne hd] at h
        cases h
  | cons c name ih =>
    cases name' with
    | nil =>
      by_cases hc : c = q
      · subst hc
        rw [escape_cons_self] at h
        cases h
      · rw [escape_cons_ne hc] at h
        cases h
    | cons d name' =>
      by_cases hc : c = q
      · subst hc
        by_cases hd : d = c
        · subst hd
          rw [escape_cons_self,escape_cons_self] at h
          rw [ih (List.cons.inj (List.cons.inj h).2).2]
        · rw [escape_cons_self,escape_cons_ne hd] at h
          exact absurd (List.cons.inj h).1.symm hd
      · by_cases hd : d = q
        · subst hd
          rw [escape_cons_ne hc,escape_cons_self] at h
          exact absurd (List.cons.inj h).1 hc
        · rw [escape_cons_ne hc,escape_cons_ne hd] at h
          obtain ⟨hhead,htail⟩ := List.cons.inj h
          rw [hhead,ih htail]

theorem length_le_escape (name : List α) : name.length ≤ (escape q name).length := by
  induction name with
  | nil => exact Nat.le_refl 0
  | cons c name ih =>
    by_cases hc : c = q
    · subst hc
      rw [escape_cons_self]
      simp only [List.length_cons]
      omega
    · rw [escape_cons_ne hc]
      simp only [List.length_cons]
      omega

theorem not_mem_of_escape_eq {name : List α} (h : escape q name = name) : q ∉ name := by
  induction name with
  | nil => simp
  | cons c name ih =>
    by_cases hc : c = q
    · subst hc
      rw [escape_cons_self] at h
      have hlong := length_le_escape (q := c) name
      have hlen := congrArg List.length h
      simp only [List.length_cons] at hlen
      omega
    · rw [escape_cons_ne hc] at h
      have hname := ih (List.cons.inj h).2
      simp [Ne.symm hc,hname]

theorem eq_marks {name x rest : List α} {n : Nat}
    (h : name ++ x = List.replicate (n+1) q ++ (escape q name ++ q :: rest)) :
    (∀ c ∈ name, c = q) ∧ x = List.replicate (n+1+name.length) q ++ q :: rest := by
  induction name generalizing n with
  | nil =>
    refine ⟨?_,h⟩
    intro c hc
    cases hc
  | cons c name ih =>
    have hc : c = q := by
      have hhead := congrArg List.head? h
      simpa [List.replicate_succ] using hhead
    subst hc
    rw [escape_cons_self] at h
    have htail : name ++ x =
        List.replicate (n+1+1) c ++ (escape c name ++ c :: rest) := by
      have hcons := congrArg List.tail h
      simp only [List.cons_append,List.tail_cons,List.replicate_succ] at hcons
      rw [hcons]
      simp [List.replicate_succ']
    obtain ⟨hall,hx⟩ := ih htail
    refine ⟨?_,?_⟩
    · intro d hd
      rcases List.mem_cons.mp hd with hd | hd
      · exact hd
      · exact hall d hd
    · rw [hx,List.length_cons]
      congr 2
      omega

/-- What follows a name and a mark in a quoted spelling begins with the mark, unless the
mark is the closing one. -/
theorem after_mark {name x rest : List α}
    (h : name ++ q :: x = escape q name ++ q :: rest) : x = rest ∨ x.head? = some q := by
  induction name with
  | nil =>
    cases h
    exact .inl rfl
  | cons c name ih =>
    by_cases hc : c = q
    · subst hc
      rw [escape_cons_self] at h
      have htail : name ++ c :: x = List.replicate (0+1) c ++ (escape c name ++ c :: rest) :=
        congrArg List.tail h
      obtain ⟨-,hx⟩ := eq_marks htail
      right
      have hcons := congrArg List.tail hx
      simp only [List.tail_cons,Nat.zero_add,Nat.add_comm 1,List.replicate_succ,
        List.cons_append] at hcons
      rw [hcons]
      cases name.length <;> rfl
    · rw [escape_cons_ne hc] at h
      exact ih (List.cons.inj h).2

theorem not_mem_of_read_back {name x rest : List α}
    (h : name ++ q :: x = escape q name ++ q :: rest) (hx : x.head? ≠ some q) : q ∉ name := by
  rcases after_mark h with heq | hhead
  · subst heq
    exact not_mem_of_escape_eq (List.append_cancel_right h).symm
  · exact absurd hhead hx

end Marks

inductive Token where
  | word (text : List Char)
  | string (content : List Char)
  | name (content : List Char)
  | mark (c : Char)
  deriving DecidableEq, Repr

/-- What the text so far leaves open; `closing` has seen a quote that ends the token
unless a second one follows. -/
inductive Mode where
  | gap
  | word (text : List Char)
  | quoted (q : Char) (content : List Char)
  | closing (q : Char) (content : List Char)
  deriving DecidableEq, Repr

def quotedToken (q : Char) (content : List Char) : Token :=
  if q = '\'' then .string content else .name content

def isGap (c : Char) : Bool :=
  c == ' ' || c == '\t' || c == '\n' || c == '\x0c' || c == '\r' || c == '\uFEFF'

def isIdStart (c : Char) : Bool := c.isAlpha || c == '_' || 128 ≤ c.toNat

def isIdChar (c : Char) : Bool := isIdStart c || c.isDigit || c == '$'

def start (c : Char) : Option (List Token × Mode) :=
  if isGap c then some ([],.gap)
  else if c = '\'' ∨ c = '"' then some ([],.quoted c [])
  else if isIdStart c then some ([],.word [c])
  else if c = ',' ∨ c = '(' ∨ c = ')' then some ([.mark c],.gap)
  else none

def emit (t : Token) (r : Option (List Token × Mode)) : Option (List Token × Mode) :=
  r.map fun r => (t :: r.1,r.2)

/-- `x'…'` is a blob. NUL ends the text wherever it stands. -/
def step : Mode → Char → Option (List Token × Mode)
  | .gap, c => start c
  | .word text, c =>
    if isIdChar c then some ([],.word (text ++ [c]))
    else if c = '\'' ∧ (text = ['x'] ∨ text = ['X']) then none
    else emit (.word text) (start c)
  | .quoted q content, c =>
    if c = '\x00' then none
    else some ([],if c = q then .closing q content else .quoted q (content ++ [c]))
  | .closing q content, c =>
    if c = q then some ([],.quoted q (content ++ [q])) else emit (quotedToken q content) (start c)

def finish : Mode → Option (List Token)
  | .gap => some []
  | .word text => some [.word text]
  | .quoted _ _ => none
  | .closing q content => some [quotedToken q content]

def lexFrom : Mode → List Char → Option (List Token)
  | m, [] => finish m
  | m, c :: cs => (step m c).bind fun r => (lexFrom r.2 cs).map (r.1 ++ ·)

def lex (text : List Char) : Option (List Token) := lexFrom .gap text

def run : Mode → List Char → Option (List Token × Mode)
  | m, [] => some ([],m)
  | m, c :: cs => (step m c).bind fun r => (run r.2 cs).map fun r' => (r.1 ++ r'.1,r'.2)

theorem lexFrom_append {m m' : Mode} {s : List Char} {ts : List Token}
    (h : run m s = some (ts,m')) (rest : List Char) :
    lexFrom m (s ++ rest) = (lexFrom m' rest).map (ts ++ ·) := by
  induction s generalizing m ts with
  | nil =>
    obtain ⟨rfl,rfl⟩ := Prod.mk.inj (Option.some.inj h)
    simp
  | cons c s ih =>
    simp only [run,Option.bind_eq_some_iff,Option.map_eq_some_iff] at h
    obtain ⟨⟨t,m₁⟩,hstep,⟨ts',m₂⟩,hrun,heq⟩ := h
    obtain ⟨rfl,rfl⟩ := Prod.mk.inj heq
    simp [lexFrom,hstep,ih hrun,Option.map_map,Function.comp_def]

theorem run_quoted {q : Char} {name : List Char} (hq : q ≠ '\x00') (h : q ∉ name)
    (hnul : '\x00' ∉ name) (content : List Char) :
    run (.quoted q content) (name ++ [q]) = some ([],.closing q (content ++ name)) := by
  induction name generalizing content with
  | nil => simp [run,step,hq]
  | cons c name ih =>
    have hc : c ≠ q := fun hc => h (hc ▸ List.mem_cons_self)
    have hc₀ : c ≠ '\x00' := fun hc => hnul (hc ▸ List.mem_cons_self)
    have hname := ih (List.not_mem_of_not_mem_cons h) (List.not_mem_of_not_mem_cons hnul)
    simp [run,step,hc,hc₀,hname]

theorem lexFrom_closing {q c : Char} (hc : c ≠ q) (content rest : List Char) :
    lexFrom (.closing q content) (c :: rest) =
      (lexFrom .gap (c :: rest)).map (quotedToken q content :: ·) := by
  simp only [lexFrom,step,hc,if_false,emit]
  cases start c <;> simp [Option.map_map,Function.comp_def]

/-- Whatever is read inside quotes is a content in its escaped form and a closing quote. -/
theorem lexFrom_quoted {q : Char} : ∀ {s content : List Char} {ts : List Token},
    lexFrom (.quoted q content) s = some ts →
      ∃ more rest ts', s = escape q more ++ q :: rest ∧ '\x00' ∉ more ∧
        ts = quotedToken q (content ++ more) :: ts'
  | [], _, _, h => by cases h
  | c :: s, content, ts, h => by
    have hc₀ : c ≠ '\x00' := by
      rintro rfl
      simp [lexFrom,step] at h
    by_cases hc : c = q
    · subst hc
      have hclosing : lexFrom (.closing c content) s = some ts := by
        simpa [lexFrom,step,hc₀] using h
      match s, hclosing with
      | [], hclosing =>
        exact ⟨[],[],[],rfl,by simp,by simpa [lexFrom,finish] using hclosing.symm⟩
      | c' :: s, hclosing =>
        by_cases hc' : c' = c
        · subst hc'
          have hin : lexFrom (.quoted c' (content ++ [c'])) s = some ts := by
            simpa [lexFrom,step] using hclosing
          obtain ⟨more,rest,ts',rfl,hnul,rfl⟩ := lexFrom_quoted hin
          refine ⟨c' :: more,rest,ts',?_,by simp [Ne.symm hc₀,hnul],by simp⟩
          rw [escape_cons_self]
          rfl
        · rw [lexFrom_closing hc'] at hclosing
          obtain ⟨ts',-,rfl⟩ := Option.map_eq_some_iff.mp hclosing
          exact ⟨[],c' :: s,ts',rfl,by simp,by simp⟩
    · have hin : lexFrom (.quoted q (content ++ [c])) s = some ts := by
        simpa [lexFrom,step,hc,hc₀] using h
      obtain ⟨more,rest,ts',hs,hnul,rfl⟩ := lexFrom_quoted hin
      refine ⟨c :: more,rest,ts',?_,by simp [Ne.symm hc₀,hnul],by simp⟩
      rw [hs,escape_cons_ne hc]
      rfl

/-- A text of the writer's own, which leaves nothing open and keeps clear of a quote in
front of it. -/
structure Fixed where
  text : List Char
  tokens : List Token
  reads : run .gap text = some (tokens,.gap)
  apart : text.head?.any (fun c => c != '\'' && c != '"') = true

inductive Quote where
  | single | double
  deriving DecidableEq, Repr

def Quote.char : Quote → Char
  | .single => '\''
  | .double => '"'

inductive Piece where
  | fixed (f : Fixed)
  | quoted (q : Quote) (name : List Char)

/-- The name stands in the text as it is, doubled quotes or not. -/
def Piece.text : Piece → List Char
  | .fixed f => f.text
  | .quoted q name => q.char :: (name ++ [q.char])

def Piece.tokens : Piece → List Token
  | .fixed f => f.tokens
  | .quoted q name => [quotedToken q.char name]

def Piece.Clean : Piece → Prop
  | .fixed _ => True
  | .quoted q name => q.char ∉ name ∧ '\x00' ∉ name

def text (ps : List Piece) : List Char := ps.flatMap Piece.text

def tokens (ps : List Piece) : List Token := ps.flatMap Piece.tokens

theorem text_append (ps ps' : List Piece) : text (ps ++ ps') = text ps ++ text ps' :=
  List.flatMap_append

theorem tokens_append (ps ps' : List Piece) : tokens (ps ++ ps') = tokens ps ++ tokens ps' :=
  List.flatMap_append

theorem text_fixed (f : Fixed) (ps : List Piece) : text (.fixed f :: ps) = f.text ++ text ps := rfl

theorem tokens_fixed (f : Fixed) (ps : List Piece) :
    tokens (.fixed f :: ps) = f.tokens ++ tokens ps := rfl

theorem text_quoted (q : Quote) (name : List Char) (ps : List Piece) :
    text (.quoted q name :: ps) = q.char :: (name ++ [q.char]) ++ text ps := rfl

theorem tokens_quoted (q : Quote) (name : List Char) (ps : List Piece) :
    tokens (.quoted q name :: ps) = quotedToken q.char name :: tokens ps := rfl

inductive Formed : List Piece → Prop where
  | nil : Formed []
  | fixed (f : Fixed) {ps : List Piece} (h : Formed ps) : Formed (.fixed f :: ps)
  | quoted (q : Quote) (name : List Char) (f : Fixed) {ps : List Piece} (h : Formed ps) :
      Formed (.quoted q name :: .fixed f :: ps)

theorem Formed.append {ps ps' : List Piece} (h : Formed ps) (h' : Formed ps') :
    Formed (ps ++ ps') := by
  induction h with
  | nil => exact h'
  | fixed f _ ih => exact .fixed f ih
  | quoted q name f _ ih => exact .quoted q name f ih

theorem Fixed.head_ne (f : Fixed) (q : Quote) :
    ∃ c rest, f.text = c :: rest ∧ c ≠ q.char := by
  have h := f.apart
  cases ht : f.text with
  | nil =>
    rw [ht] at h
    cases h
  | cons c rest =>
    simp only [ht,List.head?_cons,Option.any_some,Bool.and_eq_true,bne_iff_ne] at h
    refine ⟨c,rest,rfl,?_⟩
    cases q with
    | single => exact h.1
    | double => exact h.2

theorem lexFrom_fixed (f : Fixed) (rest : List Char) :
    lexFrom .gap (f.text ++ rest) = (lexFrom .gap rest).map (f.tokens ++ ·) :=
  lexFrom_append f.reads rest

theorem lexFrom_open (q : Quote) (s : List Char) :
    lexFrom .gap (q.char :: s) = lexFrom (.quoted q.char []) s := by
  have hstep : step .gap q.char = some ([],.quoted q.char []) := by cases q <;> rfl
  simp [lexFrom,hstep]

theorem lexFrom_clean {q : Quote} {name : List Char} (h : q.char ∉ name) (hnul : '\x00' ∉ name)
    (f : Fixed) (rest : List Char) :
    lexFrom .gap (q.char :: (name ++ [q.char]) ++ (f.text ++ rest)) =
      (lexFrom .gap (f.text ++ rest)).map (quotedToken q.char name :: ·) := by
  obtain ⟨c,more,hf,hc⟩ := f.head_ne q
  have hq : q.char ≠ '\x00' := by cases q <;> decide
  have hrun := run_quoted hq h hnul []
  rw [List.cons_append,lexFrom_open,lexFrom_append hrun,hf,List.cons_append,lexFrom_closing hc]
  simp [Option.map_map,Function.comp_def]

theorem clean_of_lexFrom {q : Quote} {name : List Char} {f : Fixed} {rest : List Char}
    {ts : List Token}
    (h : lexFrom .gap (q.char :: (name ++ [q.char]) ++ (f.text ++ rest)) =
      some (quotedToken q.char name :: ts)) : q.char ∉ name ∧ '\x00' ∉ name := by
  obtain ⟨c,more,hf,hc⟩ := f.head_ne q
  rw [List.cons_append,lexFrom_open] at h
  obtain ⟨content,after,ts',htext,hnul,htok⟩ := lexFrom_quoted h
  have hcontent : name = content := by
    have hhead := (List.cons.inj htok).1
    cases q <;> simpa [quotedToken,Quote.char] using hhead
  subst hcontent
  have hread : name ++ q.char :: (f.text ++ rest) = escape q.char name ++ q.char :: after := by
    simpa using htext
  refine ⟨not_mem_of_read_back hread ?_,hnul⟩
  simpa [hf] using hc

/-- The text is read as the tokens in mind exactly when no name has in it the quote it is
put between, or NUL. -/
theorem lex_text_iff {ps : List Piece} (h : Formed ps) :
    lex (text ps) = some (tokens ps) ↔ ∀ p ∈ ps, p.Clean := by
  unfold lex
  induction h with
  | nil => simp [text,tokens,lexFrom,finish]
  | @fixed f ps _ ih =>
    rw [text_fixed,tokens_fixed,lexFrom_fixed,List.forall_mem_cons,← ih]
    simp [Option.map_eq_some_iff,Piece.Clean]
  | @quoted q name f ps _ ih =>
    rw [text_quoted,text_fixed,tokens_quoted,tokens_fixed,List.forall_mem_cons,
      List.forall_mem_cons,← ih]
    constructor
    · intro hlex
      have hclean := clean_of_lexFrom hlex
      rw [lexFrom_clean hclean.1 hclean.2,lexFrom_fixed] at hlex
      refine ⟨hclean,trivial,?_⟩
      simpa [Option.map_eq_some_iff] using hlex
    · intro hall
      rw [lexFrom_clean hall.1.1 hall.1.2,lexFrom_fixed,hall.2.2]
      rfl

end QueryText
