import Mathlib
import ScriptHost.Proofs.Lowering
import ScriptHost.Proofs.Registration

/-!
# The signatures of a bridge

What every script of a bridge starts with is a text of the names and the numbers of arguments of the
functions, and of nothing else: one line for each function, in the order of the names. Two bridges
have the same text exactly if they have the same signatures. A script behind it stands so many lines
further down.
-/

namespace ScriptHost

open ScriptHost.Script

/-! ## Lines -/

/-- Characters up to a line break, with it. -/
def IsLine (cs : List Char) : Prop := ∃ inner, cs = inner ++ ['\n'] ∧ '\n' ∉ inner

/-- The first place of an item splits a list in only one way. -/
theorem append_cons_cancel {α : Type} {a : α} {as bs xs ys : List α} (has : a ∉ as) (hbs : a ∉ bs)
    (h : as ++ a :: xs = bs ++ a :: ys) : as = bs ∧ xs = ys := by
  induction as generalizing bs with
  | nil =>
    cases bs with
    | nil => exact ⟨rfl, (List.cons.inj h).2⟩
    | cons b bs => exact absurd ((List.cons.inj h).1 ▸ List.mem_cons_self) hbs
  | cons x as ih =>
    cases bs with
    | nil => exact absurd ((List.cons.inj h).1 ▸ List.mem_cons_self) has
    | cons b bs =>
      obtain ⟨rfl, hrest⟩ := List.cons.inj h
      obtain ⟨rfl, rfl⟩ := ih (fun hmem => has (List.mem_cons_of_mem x hmem))
        (fun hmem => hbs (List.mem_cons_of_mem x hmem)) hrest
      exact ⟨rfl, rfl⟩

/-- Joining with nothing in between is putting together. -/
theorem nil_intercalate {α : Type} (items : List (List α)) :
    List.intercalate [] items = items.flatten := by
  induction items with
  | nil => rfl
  | cons item items ih =>
    cases items with
    | nil => simp
    | cons other items =>
      rw [List.intercalate_cons_cons, ih, List.append_nil]
      rfl

/-- A text is made of lines in only one way. -/
theorem flatten_lines_inj {ls ks : List (List Char)} (hls : ∀ l ∈ ls, IsLine l)
    (hks : ∀ k ∈ ks, IsLine k) (h : ls.flatten = ks.flatten) : ls = ks := by
  induction ls generalizing ks with
  | nil =>
    cases ks with
    | nil => rfl
    | cons k ks =>
      obtain ⟨inner, rfl, -⟩ := hks k List.mem_cons_self
      simp at h
  | cons l ls ih =>
    obtain ⟨inner, rfl, hinner⟩ := hls l List.mem_cons_self
    cases ks with
    | nil => simp at h
    | cons k ks =>
      obtain ⟨inner', rfl, hinner'⟩ := hks k List.mem_cons_self
      simp only [List.flatten_cons, List.append_assoc, List.singleton_append] at h
      obtain ⟨rfl, hrest⟩ := append_cons_cancel hinner hinner' h
      rw [ih (fun l hl => hls l (List.mem_cons_of_mem _ hl))
        (fun k hk => hks k (List.mem_cons_of_mem _ hk)) hrest]

/-! ## Places in a text -/

namespace Script

/-- The position behind some characters: a line break leads to the next line. -/
def Position.behind (p : Position) (cs : List Char) : Position :=
  cs.foldl (fun p c => if c = '\n' then p.nextLine else p.advance) p

/-- Behind characters without a line break the line is the same. -/
theorem Position.behind_plain {cs : List Char} (hcs : '\n' ∉ cs) (p : Position) :
    p.behind cs = { p with column := p.column + cs.length } := by
  induction cs generalizing p with
  | nil => rfl
  | cons c cs ih =>
    obtain ⟨hc, hrest⟩ := not_or.mp (List.mem_cons.not.mp hcs)
    rw [behind, List.foldl_cons, if_neg (Ne.symm hc)]
    refine (ih hrest p.advance).trans ?_
    simp only [advance, List.length_cons, mk.injEq, true_and]
    omega

/-- Going on behind characters. -/
theorem Position.behind_append (p : Position) (cs ds : List Char) :
    p.behind (cs ++ ds) = (p.behind cs).behind ds := List.foldl_append ..

/-- Behind lines the next line begins. -/
theorem Position.behind_lines {ls : List (List Char)} (hls : ∀ l ∈ ls, IsLine l) (line : ℕ) :
    Position.behind ⟨line, 0⟩ ls.flatten = ⟨line + ls.length, 0⟩ := by
  induction ls generalizing line with
  | nil => rfl
  | cons l ls ih =>
    obtain ⟨inner, rfl, hinner⟩ := hls l List.mem_cons_self
    rw [List.flatten_cons, behind_append, behind_append, behind_plain hinner]
    refine (ih (fun l hl => hls l (List.mem_cons_of_mem _ hl)) (line + 1)).trans ?_
    simp only [List.length_cons, mk.injEq, and_true]
    omega

/-- Characters are passed further down as well. -/
theorem Position.behind_lower (n : ℕ) {p : Position} (hp : 0 < p.line) (cs : List Char) :
    (p.lower n).behind cs = (p.behind cs).lower n := by
  induction cs generalizing p with
  | nil => rfl
  | cons c cs ih =>
    rw [behind, behind, List.foldl_cons, List.foldl_cons]
    split
    · rw [lower_nextLine n hp]
      exact ih (Nat.succ_pos _)
    · rw [lower_advance]
      exact ih hp

/-- Only a blank has a line break. -/
theorem Piece.chars_plain {p : Piece} (hp : p.isValid = true) (hblank : ∀ c, p ≠ blank c) :
    '\n' ∉ p.chars := by
  cases p with
  | blank c => exact absurd rfl (hblank c)
  | word w =>
    obtain ⟨c, cs, hchars, hc, hcs⟩ := isWord_chars hp
    have hall : ∀ d ∈ c :: cs, isWordPart d = true := by
      simpa [isWordPart_of_isWordStart hc] using List.all_eq_true.mp hcs
    rw [chars, hchars]
    exact fun h => Bool.noConfusion (hall _ h)
  | mark s =>
    have hlisted : ∃ q ∈ pieceMarks, q.1 = s := by simpa [isValid] using hp
    obtain ⟨q, hmark, rfl⟩ := hlisted
    have hmarks : ∀ q ∈ pieceMarks, '\n' ∉ q.1.toList := by decide +kernel
    exact hmarks q hmark
  | quoted s =>
    have hplain : '\n' ∉ s.toList := fun h => by
      have hbreak := List.all_eq_true.mp hp _ h
      cases hbreak
    simpa [chars] using hplain
  | number n =>
    intro h
    have hdigit := Nat.isDigit_of_mem_toDigits (by decide) (by decide) h
    cases hdigit

/-- The position behind a piece is the one behind its characters. -/
theorem Piece.past_eq_behind {p : Piece} (hp : p.isValid = true) (pos : Position) :
    p.past pos = pos.behind p.chars := by
  cases p with
  | blank c => rfl
  | word w => exact (Position.behind_plain (chars_plain hp fun _ => Piece.noConfusion) pos).symm
  | mark s => exact (Position.behind_plain (chars_plain hp fun _ => Piece.noConfusion) pos).symm
  | quoted s => exact (Position.behind_plain (chars_plain hp fun _ => Piece.noConfusion) pos).symm
  | number n => exact (Position.behind_plain (chars_plain hp fun _ => Piece.noConfusion) pos).symm

/-- The position behind pieces is the one behind their characters. -/
theorem posPast_eq_behind {ps : List Piece} (hvalid : ps.all Piece.isValid = true)
    (pos : Position) : posPast pos ps = pos.behind (ps.flatMap Piece.chars) := by
  induction ps generalizing pos with
  | nil => rfl
  | cons p ps ih =>
    rw [List.all_cons, Bool.and_eq_true] at hvalid
    rw [List.flatMap_cons, Position.behind_append, ← Piece.past_eq_behind hvalid.1]
    exact ih hvalid.2 (p.past pos)

/-- The position in front of a character of a text, by the number of characters before it. -/
def placeOf (text : String) (i : ℕ) : Position := Position.start.behind (text.toList.take i)

/-- The tokens of a text, by whether a sign at its begin belongs to a number. -/
def tokensWith (signed : Bool) (text : String) : List Placed :=
  tokensFrom 0 (2 * text.toList.length + 2) ⟨signed, [], false⟩ ⟨text.toList, .start⟩

end Script

/-! ## The line of a function -/

/-- The parameters in the line of a host function. -/
def parameterText (arity : ℕ) : String :=
  joined ", " ((List.range arity).map fun i => "a" ++ toString i)

/-- Apart from digits, commas and blanks there is one letter for each parameter. -/
theorem parameterText_letters (arity : ℕ) :
    (parameterText arity).toList.filter (fun c => !(c.isDigit || c == ',' || c == ' ')) =
      List.replicate arity 'a' := by
  have hdigits (i : ℕ) : (Nat.toDigits 10 i).filter
      (fun c => !(c.isDigit || c == ',' || c == ' ')) = [] := by
    refine List.filter_eq_nil_iff.mpr fun c hc => ?_
    simp [Nat.isDigit_of_mem_toDigits (by decide) (by decide) hc]
  have hletter (i : ℕ) : ("a" ++ toString i).toList.filter
      (fun c => !(c.isDigit || c == ',' || c == ' ')) = ['a'] := by
    have hchars : ("a" ++ toString i).toList = 'a' :: Nat.toDigits 10 i := parameterName_toList i
    rw [hchars, List.filter_cons_of_pos (by decide), hdigits]
  rw [parameterText, joined, String.toList_intercalate,
    map_intercalate (List.filter _) rfl (fun as bs => List.filter_append as bs), List.map_map,
    List.map_map]
  calc
    _ = List.intercalate [] ((List.range arity).map fun _ => ['a']) :=
      congrArg _ (List.map_congr_left fun i _ => hletter i)
    _ = List.replicate arity 'a' := by
      rw [nil_intercalate, List.map_const', List.length_range, List.flatten_replicate_singleton]

/-- The parameters have no character that separates them from the rest of the line. -/
theorem not_mem_parameterText {c : Char} (hc : c ≠ 'a')
    (hother : (c.isDigit || c == ',' || c == ' ') = false) (arity : ℕ) :
    c ∉ (parameterText arity).toList := by
  intro hmem
  have hletter : c ∈ List.replicate arity 'a' := by
    rw [← parameterText_letters]
    exact List.mem_filter.mpr ⟨hmem, by simp [hother]⟩
  exact hc (List.eq_of_mem_replicate hletter)

/-- Different numbers of parameters are told by the text of the parameters. -/
theorem parameterText_inj {m n : ℕ} (h : (parameterText m).toList = (parameterText n).toList) :
    m = n := by
  have hletters := congrArg (List.filter fun c => !(c.isDigit || c == ',' || c == ' ')) h
  rw [parameterText_letters, parameterText_letters] at hletters
  simpa using congrArg List.length hletters

/-- The end of a line behind its parameters. -/
def stubEnding (name : String) (arity : ℕ) : List Char :=
  " \x7b ".toList ++ hostBinding.toList ++ "(\"".toList ++ name.toList ++ "\", [".toList ++
    (parameterText arity).toList ++ "]) \x7d".toList

/-- The characters of a line. -/
theorem stub_toList (name : String) (arity : ℕ) :
    (stub name arity).toList = ("fn ".toList ++ name.toList ++ '(' ::
      ((parameterText arity).toList ++ ')' :: stubEnding name arity)) ++ ['\n'] := by
  simp [stub, stubEnding, parameterText]

/-- The line of a function with a good name is a line. -/
theorem isLine_stub {name : String} (hname : IsFunctionName name) (arity : ℕ) :
    IsLine (stub name arity).toList := by
  refine ⟨_, stub_toList name arity, ?_⟩
  have hchars : '\n' ∉ name.toList := fun h => by
    have hpart := hname.characters _ h
    cases hpart
  have hparameters := not_mem_parameterText (c := '\n') (by decide) (by decide) arity
  simp [stubEnding, hchars, hparameters, hostBinding]

/-- **The line of a function tells its name and its number of arguments.** -/
theorem stub_inj {name other : String} {m n : ℕ} (hname : IsFunctionName name)
    (hother : IsFunctionName other) (h : stub name m = stub other n) : name = other ∧ m = n := by
  -- The name ends at the first opening parenthesis, the parameters end at the first closing one.
  have hparen {w : String} (hw : IsFunctionName w) : '(' ∉ w.toList := fun hmem => by
    have hpart := hw.characters _ hmem
    cases hpart
  have hchars := congrArg String.toList h
  rw [stub_toList, stub_toList] at hchars
  have hline := List.append_cancel_right hchars
  rw [List.append_assoc, List.append_assoc] at hline
  obtain ⟨hnames, hrest⟩ :=
    append_cons_cancel (hparen hname) (hparen hother) (List.append_cancel_left hline)
  have hclose (arity : ℕ) : ')' ∉ (parameterText arity).toList :=
    not_mem_parameterText (by decide) (by decide) arity
  obtain ⟨hparameters, -⟩ := append_cons_cancel (hclose m) (hclose n) hrest
  exact ⟨String.toList_inj.mp hnames, parameterText_inj hparameters⟩

/-! ## The lines of a bridge -/

namespace Bridge

variable {ω ω' : Type} {registrations : List (Registration ω)} {b : Bridge ω}
  {registrations' : List (Registration ω')} {b' : Bridge ω'}

/-- The names and the numbers of arguments of registered functions. -/
def signatures (registrations : List (Registration ω)) : Set (String × ℕ) :=
  {p | ∃ r ∈ registrations, p = (r.name, r.function.arity)}

/-- The lines of a bridge. -/
def lines (b : Bridge ω) : List (List Char) := b.stubs.map fun p => (stub p.1 p.2).toList

/-- The lines are what every script starts with. -/
theorem preamble_toList (b : Bridge ω) : b.preamble.toList = b.lines.flatten := by
  rw [preamble, String.toList_intercalate]
  refine (nil_intercalate _).trans ?_
  simp [lines, stubs, Function.comp_def]

/-- The names of a bridge that could be built are good ones. -/
theorem isFunctionName_of_build (hbuild : build registrations = .ok b) :
    ∀ p ∈ b.stubs, IsFunctionName p.1 := by
  intro p hp
  obtain ⟨f, hf, rfl⟩ := List.mem_map.mp hp
  exact nameProblem?_eq_none_iff.mp ((build_go List.Pairwise.nil (by simp) hbuild).2 f hf)

/-- The lines of a bridge that could be built are lines. -/
theorem isLine_of_build (hbuild : build registrations = .ok b) : ∀ l ∈ b.lines, IsLine l := by
  intro l hl
  obtain ⟨p, hp, rfl⟩ := List.mem_map.mp hl
  exact isLine_stub (isFunctionName_of_build hbuild p hp) p.2

/-- The functions of a bridge that could be built are in the order of their names. -/
theorem stubs_sorted (hbuild : build registrations = .ok b) :
    b.stubs.Pairwise fun p q => p.1 < q.1 :=
  (build_go List.Pairwise.nil (by simp) hbuild).1.map _ fun _ _ h => h

/-- The signatures of a bridge that could be built are those of its registrations. -/
theorem mem_stubs_iff (hbuild : build registrations = .ok b) (p : String × ℕ) :
    p ∈ b.stubs ↔ p ∈ signatures registrations := by
  have hperm := (perm_of_build hbuild).map fun p => (p.1, p.2.arity)
  rw [List.map_map] at hperm
  rw [stubs, hperm.mem_iff]
  simp [signatures, eq_comm]

/-- There is one function for each registration. -/
theorem length_stubs (hbuild : build registrations = .ok b) :
    b.stubs.length = registrations.length := by
  simpa [stubs] using (perm_of_build hbuild).length_eq

/-- Bridges with the same signatures have the same functions for scripts. -/
theorem stubs_eq_iff (hbuild : build registrations = .ok b)
    (hbuild' : build registrations' = .ok b') :
    b.stubs = b'.stubs ↔ signatures registrations = signatures registrations' := by
  constructor
  · intro h
    ext p
    rw [← mem_stubs_iff hbuild, h, mem_stubs_iff hbuild']
  · intro h
    -- A list in strict order is known by its members.
    have hirrefl : Std.Irrefl fun p q : String × ℕ => p.1 < q.1 := ⟨fun p => String.lt_irrefl p.1⟩
    have hantisymm : Std.Antisymm fun p q : String × ℕ => p.1 < q.1 :=
      ⟨fun p q hpq hqp => absurd hpq (String.lt_asymm hqp)⟩
    refine (stubs_sorted hbuild).eq_of_mem_iff (stubs_sorted hbuild') fun p => ?_
    rw [mem_stubs_iff hbuild, mem_stubs_iff hbuild', h]

/-- **The lines tell the signatures.** -/
theorem preamble_eq_iff (hbuild : build registrations = .ok b)
    (hbuild' : build registrations' = .ok b') :
    b.preamble = b'.preamble ↔ signatures registrations = signatures registrations' := by
  rw [← stubs_eq_iff hbuild hbuild']
  constructor
  · intro h
    have hlines : b.lines = b'.lines := by
      refine flatten_lines_inj (isLine_of_build hbuild) (isLine_of_build hbuild') ?_
      rw [← preamble_toList, ← preamble_toList, h]
    -- Lines do not run into one another, so each of them is the same.
    refine List.ext_getElem (by simpa [lines] using congrArg List.length hlines) fun i hi hi' => ?_
    have hline : (stub b.stubs[i].1 b.stubs[i].2).toList =
        (stub b'.stubs[i].1 b'.stubs[i].2).toList := by
      simpa [lines] using List.getElem_of_eq hlines (i := i) (by simpa [lines] using hi)
    obtain ⟨hname, harity⟩ := stub_inj
      (isFunctionName_of_build hbuild _ (List.getElem_mem hi))
      (isFunctionName_of_build hbuild' _ (List.getElem_mem hi')) (String.toList_inj.mp hline)
    exact Prod.ext hname harity
  · intro h
    refine String.toList_inj.mp ?_
    rw [preamble_toList, preamble_toList, lines, lines, h]

/-- A text has one line for each registration, in the order of the names. -/
def Lists (text : String) (registrations : List (Registration ω)) : Prop :=
  ∃ ordered : List (Registration ω), ordered.Perm registrations ∧
    (ordered.map (·.name)).Pairwise (· < ·) ∧
    text.toList = (ordered.map fun r => (stub r.name r.function.arity).toList).flatten ∧
    ∀ r ∈ ordered, IsLine (stub r.name r.function.arity).toList

/-- What every script of a bridge starts with has one line for each registration. -/
theorem lists_preamble (hbuild : build registrations = .ok b) :
    Lists b.preamble registrations := by
  let ordered : List (Registration ω) := b.functions.map fun p => ⟨p.1, p.2⟩
  have hlines : b.lines = ordered.map fun r => (stub r.name r.function.arity).toList := by
    simp [lines, stubs, ordered, Function.comp_def]
  refine ⟨ordered, ?_, ?_, ?_, ?_⟩
  · have hperm := (perm_of_build hbuild).map fun p => (⟨p.1, p.2⟩ : Registration ω)
    rw [List.map_map] at hperm
    simpa [ordered, Function.comp_def] using hperm
  · have hsorted := (build_go List.Pairwise.nil (by simp) hbuild).1
    rw [List.map_map]
    exact hsorted.map _ fun _ _ h => h
  · rw [preamble_toList, hlines]
  · intro r hr
    refine isLine_of_build hbuild _ ?_
    rw [hlines]
    exact List.mem_map_of_mem hr

/-! ## Scripts behind the lines -/

/-- Behind the lines a text stands so many lines further down. -/
theorem behind_preamble (hbuild : build registrations = .ok b) :
    Position.start.behind b.preamble.toList = Position.start.lower registrations.length := by
  rw [preamble_toList]
  refine (Position.behind_lines (isLine_of_build hbuild) 1).trans ?_
  rw [lines, List.length_map, length_stubs hbuild]
  rfl

/-- Behind the lines no sign belongs to a number. -/
theorem signedPast_pieces
    (hnames : ∀ p ∈ b.stubs, isIdentifier p.1 = true ∧ isReserved p.1 = false) :
    signedPast true b.pieces = b.stubs.isEmpty := by
  rw [signedPast, b.pieces_tokens hnames]
  rcases List.eq_nil_or_concat b.stubs with hnil | ⟨others, p, hlast⟩
  · rw [hnil]
    rfl
  · have hend (signed : Bool) : stubEnd.foldl (fun _ t => t.allowsSign) signed = false := by rfl
    rw [hlast, List.concat_eq_append, List.flatMap_append, List.foldl_append]
    simp [stubTokens, hend]

/-- **Behind the lines a script has its own tokens, so many lines further down.** -/
theorem tokens_behind (hbuild : build registrations = .ok b)
    (hnames : ∀ r ∈ registrations, isIdentifier r.name = true) :
    ∃ front, ∀ text body : String, text.toList = b.preamble.toList ++ body.toList →
      tokens 0 text =
        front ++ (tokensWith registrations.isEmpty body).map (·.lower registrations.length) := by
  have hstubs := names_of_build hbuild <|
    (forall_names_iff hbuild (isIdentifier · = true)).mpr hnames
  have hvalid := b.pieces_isValid fun p hp => (hstubs p hp).1
  have hempty : b.stubs.isEmpty = registrations.isEmpty := by
    rw [Bool.eq_iff_iff, List.isEmpty_iff_length_eq_zero, List.isEmpty_iff_length_eq_zero,
      length_stubs hbuild]
  have hpos : posPast .start b.pieces = Position.start.lower registrations.length := by
    rw [posPast_eq_behind hvalid, pieces_chars, behind_preamble hbuild]
  obtain ⟨front, spare, -, hscan⟩ := tokens_past hvalid
  rw [signedPast_pieces hstubs, hempty, hpos] at hscan
  refine ⟨front, fun text body htext => ?_⟩
  rw [← pieces_chars] at htext
  calc
    tokens 0 text = front ++ tokensFrom 0 (spare + 2 * body.toList.length + 1)
        ⟨registrations.isEmpty, [], false⟩
        (Cursor.lower registrations.length ⟨body.toList, .start⟩) :=
      hscan body.toList (b.pieces_areApart _) text htext
    _ = front ++ tokensFrom 0 (2 * body.toList.length + 2) ⟨registrations.isEmpty, [], false⟩
        (Cursor.lower registrations.length ⟨body.toList, .start⟩) := by
      rw [tokensFrom_bound]
      · exact (by omega : body.toList.length < spare + 2 * body.toList.length + 1)
      · exact (by omega : body.toList.length < 2 * body.toList.length + 2)
    _ = _ := by
      rw [tokensFrom_lower _ _ _ _ (by exact Nat.one_pos)]
      rfl

/-- **Behind a bad name no script has a token.** Where a name is no identifier, the scanner stops in
the lines. -/
theorem tokens_behind_bad (hbuild : build registrations = .ok b)
    (hbad : ¬ ∀ r ∈ registrations, isIdentifier r.name = true) :
    ∃ front, ∀ text body : String, text.toList = b.preamble.toList ++ body.toList →
      tokens 0 text = front := by
  rw [← forall_names_iff hbuild (isIdentifier · = true)] at hbad
  -- The lines before the bad one are scanned, then the scanner takes one more word and stops.
  obtain ⟨l⟩ := exists_badLine hbuild hbad
  have hvalid := l.before.pieces_isValid fun p hp => (l.names p hp).1
  obtain ⟨front, spare, -, hscan⟩ := tokens_past hvalid
  obtain ⟨p, q, hstop⟩ := tokensFrom_badName l.accepted l.bad
    (signedPast true l.before.pieces) (posPast .start l.before.pieces)
  refine ⟨front ++ [⟨.mark "fn", p⟩, ⟨.fault (.identifier l.name), q⟩], fun text body htext => ?_⟩
  let rest := "fn ".toList ++ (l.name.toList ++ (l.rest ++ body.toList))
  have hchars : text.toList = l.before.pieces.flatMap Piece.chars ++ rest := by
    rw [htext, ← pieces_chars, l.chars_eq]
    simp only [rest, List.append_assoc]
  obtain ⟨fuel, hfuel⟩ : ∃ k, spare + 2 * rest.length + 1 = k + 2 := by
    have hlength : 3 ≤ rest.length := by simp [rest]
    exact Nat.exists_eq_add_of_le' (by omega)
  rw [hscan rest (l.before.pieces_areApart _) text hchars, hfuel,
    hstop (l.rest_apart body.toList)]

end Bridge

/-! ## Sources and caches -/

namespace Host

variable {ω ω' : Type} {h : Host ω} {h' : Host ω'} {script : String}

/-- What a host reads of a script behind its lines: a text that begins with a brace is an object
map. -/
def bodyOf (script : String) : String :=
  if script.startsWith "\x7b" then "(#" ++ script ++ ")" else script

/-- Two hosts with the same lines have the same full text of a script, and only these. -/
theorem sourceOf_eq_iff :
    h.sourceOf script = h'.sourceOf script ↔ h.bridge.preamble = h'.bridge.preamble := by
  rw [sourceOf, sourceOf, ← String.toList_inj, ← String.toList_inj, String.toList_append,
    String.toList_append]
  exact List.append_left_inj _

/-- Hosts that have the same full text of a script and the same configuration find it in a cache
alike, and put the same in it. -/
theorem compile_congr (hsource : h.sourceOf script = h'.sourceOf script)
    (hconfig : h.config = h'.config) {s : Store ω} {s' : Store ω'} (hcache : s.cache = s'.cache) :
    (h.compile script s).1 = (h'.compile script s').1 ∧
      (h.compile script s).2.cache = (h'.compile script s').2.cache := by
  have htext : h.compileText (h'.sourceOf script) = h'.compileText (h'.sourceOf script) := by
    rw [compileText, compileText, hconfig]
  simp only [compile, hsource, hcache, htext, hconfig]
  cases s'.cache.find? (h'.sourceOf script) with
  | some p => exact ⟨rfl, rfl⟩
  | none =>
    cases h'.compileText (h'.sourceOf script) with
    | error f => exact ⟨rfl, hcache⟩
    | ok p =>
      dsimp only
      split_ifs
      · exact ⟨rfl, hcache⟩
      · exact ⟨rfl, rfl⟩

end Host

namespace Bridge

variable {ω ω' : Type} {registrations : List (Registration ω)} {b : Bridge ω}
  {registrations' : List (Registration ω')} {b' : Bridge ω'}

/-- Every place of a script is so many lines further down in the full text. -/
theorem placeOf_sourceOf {h : Host ω} (hbuild : build registrations = .ok h.bridge)
    (script : String) (i : ℕ) :
    placeOf (h.sourceOf script) (h.bridge.preamble.length + i) =
      (placeOf (Host.bodyOf script) i).lower registrations.length := by
  have hchars : (h.sourceOf script).toList.take (h.bridge.preamble.length + i) =
      h.bridge.preamble.toList ++ (Host.bodyOf script).toList.take i := by
    rw [Host.sourceOf, String.toList_append, ← String.length_toList, List.take_length_add_append]
    rfl
  rw [placeOf, hchars, Position.behind_append, behind_preamble hbuild]
  exact Position.behind_lower _ Nat.one_pos _

/-- **What every script of a bridge starts with is canonical.** It tells the names of the functions
and their numbers of arguments, and nothing else: two bridges have the same text exactly if these
are the same, in whatever order the functions were registered and whatever they do. The text has one
line for each function, in the order of the names. Every script stands behind it, so every place of
a script, and every token, is in the same column as many lines further down as there are functions;
with a name that is no identifier the scanner never comes to the script. Hosts of bridges with the
same signatures have the same full texts and use a cache alike. -/
theorem preamble_canonical (hbuild : build registrations = .ok b)
    (hbuild' : build registrations' = .ok b') :
    (b.preamble = b'.preamble ↔ signatures registrations = signatures registrations') ∧
    Lists b.preamble registrations ∧
    (∀ (h : Host ω), h.bridge = b → ∀ script,
      h.sourceOf script = b.preamble ++ Host.bodyOf script ∧
      ∀ i, placeOf (h.sourceOf script) (b.preamble.length + i) =
        (placeOf (Host.bodyOf script) i).lower registrations.length) ∧
    (∃ front, ∀ (h : Host ω), h.bridge = b → h.config.maxStringSize = 0 → ∀ script,
      tokens h.config.maxStringSize (h.sourceOf script) = front ++
        if ∀ r ∈ registrations, isIdentifier r.name = true then
          (tokensWith registrations.isEmpty (Host.bodyOf script)).map
            (·.lower registrations.length)
        else []) ∧
    ∀ (h : Host ω) (h' : Host ω'), h.bridge = b → h'.bridge = b' → ∀ script,
      (h.sourceOf script = h'.sourceOf script ↔
        signatures registrations = signatures registrations') ∧
      (signatures registrations = signatures registrations' → h.config = h'.config →
        ∀ (s : Store ω) (s' : Store ω'), s.cache = s'.cache →
          (h.compile script s).1 = (h'.compile script s').1 ∧
            (h.compile script s).2.cache = (h'.compile script s').2.cache) := by
  have hsources (h : Host ω) (h' : Host ω') (hb : h.bridge = b) (hb' : h'.bridge = b')
      (script : String) : h.sourceOf script = h'.sourceOf script ↔
        signatures registrations = signatures registrations' := by
    rw [Host.sourceOf_eq_iff, hb, hb', preamble_eq_iff hbuild hbuild']
  refine ⟨preamble_eq_iff hbuild hbuild', lists_preamble hbuild, ?_, ?_,
    fun h h' hb hb' script => ⟨hsources h h' hb hb' script, fun hsame hconfig s s' hcache => ?_⟩⟩
  · rintro h rfl script
    exact ⟨rfl, placeOf_sourceOf hbuild script⟩
  · by_cases hnames : ∀ r ∈ registrations, isIdentifier r.name = true
    · obtain ⟨front, hfront⟩ := tokens_behind hbuild hnames
      refine ⟨front, ?_⟩
      rintro h rfl hlimit script
      rw [if_pos hnames, hlimit]
      exact hfront _ _ (String.toList_append ..)
    · obtain ⟨front, hfront⟩ := tokens_behind_bad hbuild hnames
      refine ⟨front, ?_⟩
      rintro h rfl hlimit script
      rw [if_neg hnames, hlimit, List.append_nil]
      exact hfront _ _ (String.toList_append ..)
  · exact Host.compile_congr ((hsources h h' hb hb' script).mpr hsame) hconfig hcache

/-- A host function that counts its calls and gives its arguments back. -/
def counting (arity : ℕ) : HostFunction ℕ :=
  { arity, run := fun args calls => { outcome := .ok (.list args), world := calls + 1 } }

/-- Two functions in two orders have the same lines, whatever they do, and with another number of
arguments they have not; the script behind them begins in the third line. -/
theorem preamble_canonical_orders :
    ∃ b b' c, build [⟨"pair", idle 2⟩, ⟨"nothing", idle 0⟩] = .ok b ∧
      build [⟨"nothing", counting 0⟩, ⟨"pair", counting 2⟩] = .ok b' ∧
      build [⟨"pair", idle 3⟩, ⟨"nothing", idle 0⟩] = .ok c ∧
      b.preamble = b'.preamble ∧ b.preamble ≠ c.preamble ∧
      ∀ script, ({ bridge := b } : Host Unit).sourceOf script =
          ({ bridge := b' } : Host ℕ).sourceOf script ∧
        placeOf (({ bridge := b } : Host Unit).sourceOf script) (b.preamble.length + 0) =
          ⟨3, 0⟩ := by
  have hb : build [⟨"pair", idle 2⟩, ⟨"nothing", idle 0⟩] =
      .ok ⟨[("nothing", idle 0), ("pair", idle 2)]⟩ := by rfl
  have hb' : build [⟨"nothing", counting 0⟩, ⟨"pair", counting 2⟩] =
      .ok ⟨[("nothing", counting 0), ("pair", counting 2)]⟩ := by rfl
  have hc : build [⟨"pair", idle 3⟩, ⟨"nothing", idle 0⟩] =
      .ok ⟨[("nothing", idle 0), ("pair", idle 3)]⟩ := by rfl
  obtain ⟨hsame, -, hplaces, -, hsources⟩ := preamble_canonical hb hb'
  obtain ⟨hother, -⟩ := preamble_canonical hb hc
  have hsignatures : signatures [⟨"pair", idle 2⟩, ⟨"nothing", idle 0⟩] =
      signatures [⟨"nothing", counting 0⟩, ⟨"pair", counting 2⟩] := by
    ext p
    simp [signatures, idle, counting, or_comm]
  refine ⟨_, _, _, hb, hb', hc, hsame.mpr hsignatures, fun heq => ?_, fun script => ⟨?_, ?_⟩⟩
  · have hmem : ("pair", 2) ∈ signatures [⟨"pair", idle 3⟩, ⟨"nothing", idle 0⟩] := by
      rw [← hother.mp heq]
      exact ⟨_, List.mem_cons_self, rfl⟩
    simp [signatures, idle] at hmem
  · exact ((hsources _ _ rfl rfl script).1).mpr hsignatures
  · exact (hplaces _ rfl script).2 0

end Bridge

end ScriptHost
