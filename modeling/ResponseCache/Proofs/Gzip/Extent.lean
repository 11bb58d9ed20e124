import ResponseCache.Gzip.Inflate
import ResponseCache.Proofs.Gzip.Bits

/-!
# How far readers look

A reader that succeeds has looked at the bytes that it took and at nothing behind them, so it succeeds in the same way
whatever follows (`Takes`). For readers of bits that includes the byte that was opened, and the fuel: as much as there
were bits in what was taken is enough (`Bits.Takes`), since every step that costs fuel takes a bit (`Bits.Takes.step`).
Readers are put together from steps, one after the other, up to the reader of deflate data (`inflate_takes`).
-/

namespace ResponseCache.Gzip

/-! ## Readers that succeed -/

section Success

variable {ε α β : Type} {e : ε} {b : β}

theorem bind_eq_ok {x : Except ε α} {f : α → Except ε β} : x >>= f = .ok b ↔ ∃ a, x = .ok a ∧ f a = .ok b := by
  cases x with
  | error e => exact iff_of_false nofun fun h => nomatch h.choose_spec.1
  | ok a => simp [bind, Except.bind]

/-- A reader that refuses some data has gone on. -/
theorem refuse_eq_ok {p : Prop} [Decidable p] {next : Unit → Except ε β} :
    (if p then throw e >>= next else next ()) = .ok b ↔ ¬ p ∧ next () = .ok b := by
  split
  · next yes => exact iff_of_false nofun fun h => h.1 yes
  · next no => exact (and_iff_right no).symm

end Success

/-! ## Bytes -/

/-- From some bytes on, a run leaves others; it looks at what it takes and at nothing else. -/
def Takes (P : List UInt8 → List UInt8 → Prop) (bytes rest : List UInt8) : Prop :=
  ∃ taken, bytes = taken ++ rest ∧ ∀ more, P (taken ++ more) more

namespace Takes

variable {P Q : List UInt8 → List UInt8 → Prop} {bytes bytes' rest : List UInt8}

theorem nothing (idle : ∀ more, P more more) : Takes P bytes bytes := ⟨[], rfl, idle⟩

theorem mono (takes : Takes P bytes rest) (le : ∀ bytes rest, P bytes rest → Q bytes rest) : Takes Q bytes rest := by
  obtain ⟨taken, split, run⟩ := takes
  exact ⟨taken, split, fun more => le _ _ (run more)⟩

/-- One run after another. -/
theorem seq (one : Takes P bytes bytes') (two : Takes Q bytes' rest) :
    Takes (fun bytes rest => ∃ bytes', P bytes bytes' ∧ Q bytes' rest) bytes rest := by
  obtain ⟨taken, rfl, run⟩ := one
  obtain ⟨taken', rfl, run'⟩ := two
  refine ⟨taken ++ taken', (List.append_assoc ..).symm, fun more => ⟨taken' ++ more, ?_, run' more⟩⟩
  rw [List.append_assoc]
  exact run (taken' ++ more)

/-- With more bytes behind, a run takes the same and leaves more. -/
theorem append (takes : Takes P bytes rest) (more : List UInt8) : P (bytes ++ more) (rest ++ more) := by
  obtain ⟨taken, rfl, run⟩ := takes
  rw [List.append_assoc]
  exact run (rest ++ more)

end Takes

/-! ## Bits -/

namespace Bits

/-- The number of bits left to read. -/
def left (r : Bits) : Nat := r.toBits.length

theorem left_eq (r : Bits) : r.left = r.opened.length + 8 * r.bytes.length := by
  rw [left, toBits, List.length_append, length_bitsOfBytes]

/-- From a place on, a run with some fuel goes to another place; it looks at what it takes and at nothing else, and as
much fuel as there are bits in that is enough. -/
structure Takes (P : Nat → Bits → Bits → Prop) (r r' : Bits) : Prop where
  left_le : r'.left ≤ r.left
  bytes : Gzip.Takes (fun bytes rest => ∀ fuel, r.left ≤ r'.left + fuel → P fuel ⟨r.opened, bytes⟩ ⟨r'.opened, rest⟩)
    r.bytes r'.bytes

namespace Takes

variable {P Q : Nat → Bits → Bits → Prop} {r r' r'' : Bits}

theorem nothing (idle : ∀ fuel r, P fuel r r) : Takes P r r :=
  ⟨Nat.le_refl _, .nothing fun _ _ _ => idle _ _⟩

theorem stay (r : Bits) : Takes (fun _ s s' => s' = s) r r := .nothing fun _ _ => rfl

theorem mono (takes : Takes P r r') (le : ∀ fuel s s', P fuel s s' → Q fuel s s') : Takes Q r r' :=
  ⟨takes.left_le, takes.bytes.mono fun _ _ run fuel enough => le _ _ _ (run fuel enough)⟩

/-- More fuel is enough too. -/
theorem fuel_add (takes : Takes P r r') (more : Nat) : Takes (fun fuel => P (fuel + more)) r r' :=
  ⟨takes.left_le, takes.bytes.mono fun _ _ run fuel enough => run _ (by omega)⟩

/-- One run after another. -/
theorem seq (one : Takes P r r') (two : Takes Q r' r'') :
    Takes (fun fuel s s'' => ∃ s', P fuel s s' ∧ Q fuel s' s'') r r'' := by
  have le := one.left_le
  have le' := two.left_le
  refine ⟨Nat.le_trans le' le, (one.bytes.seq two.bytes).mono ?_⟩
  rintro bytes rest ⟨bytes', run, run'⟩ fuel enough
  exact ⟨_, run fuel (by omega), run' fuel (by omega)⟩

/-- **A step that takes a bit** may cost fuel. -/
theorem step (one : Takes P r r') (lt : r'.left < r.left) (two : Takes Q r' r'') :
    Takes (fun fuel s s'' => ∃ less s', fuel = less + 1 ∧ P fuel s s' ∧ Q less s' s'') r r'' := by
  have le := two.left_le
  refine ⟨Nat.le_trans le (Nat.le_of_lt lt), (one.bytes.seq two.bytes).mono ?_⟩
  rintro bytes rest ⟨bytes', run, run'⟩ fuel enough
  obtain ⟨less, rfl⟩ := Nat.exists_eq_add_one_of_ne_zero (show fuel ≠ 0 by omega)
  exact ⟨less, _, rfl, run _ (by omega), run' less (by omega)⟩

end Takes

variable {r r' : Bits}

theorem left_next {b : Bool} (h : r.next? = some (b, r')) : r.left = r'.left + 1 := by
  have view := toBits_of_next? (r := r)
  rw [h] at view
  rw [left, view]
  rfl

theorem next_takes {b : Bool} (h : r.next? = some (b, r')) : Takes (fun _ s s' => s.next? = some (b, s')) r r' where
  left_le := by
    have := left_next h
    omega
  bytes := by
    obtain ⟨opened, bytes⟩ := r
    cases opened with
    | cons b' opened =>
      cases h
      exact .nothing fun _ _ _ => rfl
    | nil =>
      cases bytes with
      | nil => cases h
      | cons x bytes =>
        -- every byte has a first bit
        cases h
        exact ⟨[x], rfl, fun _ _ _ => rfl⟩

theorem read_takes {width : Nat} : ∀ {r : Bits} {value : Nat}, r.read width = .ok (value, r') →
    Takes (fun _ s s' => s.read width = .ok (value, s')) r r' := by
  induction width with
  | zero =>
    intro r value h
    cases h
    exact .nothing fun _ _ => rfl
  | succ width ih =>
    intro r value h
    rw [read] at h
    split at h
    · cases h
    · next b r₁ first =>
      split at h
      · cases h
      · next value r₂ others =>
        cases h
        refine ((next_takes first).seq (ih others)).mono ?_
        rintro _ s s'' ⟨s', first, others⟩
        simp only [read, first, others]

/-- A number of some bits takes a bit. -/
theorem left_read {width value : Nat} (h : r.read (width + 1) = .ok (value, r')) : r'.left < r.left := by
  rw [read] at h
  split at h
  · cases h
  · next b r₁ first =>
    split at h
    · cases h
    · next value r₂ others =>
      cases h
      have one := left_next first
      have le := (read_takes others).left_le
      omega

end Bits

open Bits (next_takes read_takes left_next left_read)

/-! ## Words and tokens -/

section Tokens

variable {r r' : Bits}

theorem decode_takes : ∀ {tree : Tree} {r : Bits} {symbol : Nat}, tree.decode r = .ok (symbol, r') →
    Bits.Takes (fun _ s s' => tree.decode s = .ok (symbol, s')) r r'
  | .empty, _, _, h => nomatch h
  | .leaf _, _, _, h => by
    cases h
    exact .nothing fun _ _ => rfl
  | .node zero one, r, symbol, h => by
    rw [Tree.decode] at h
    split at h
    · cases h
    · next b r₁ first =>
      cases b with
      | true =>
        have rest : one.decode r₁ = .ok (symbol, r') := h
        refine ((next_takes first).seq (decode_takes rest)).mono ?_
        rintro _ s s'' ⟨s', first, others⟩
        simp only [Tree.decode, first, if_true, others]
      | false =>
        have rest : zero.decode r₁ = .ok (symbol, r') := h
        refine ((next_takes first).seq (decode_takes rest)).mono ?_
        rintro _ s s'' ⟨s', first, others⟩
        simp only [Tree.decode, first, Bool.false_eq_true, if_false, others]

/-- The tree has a root where it branches. -/
def Tree.Branches (tree : Tree) : Prop := ∃ zero one, tree = .node zero one

theorem branches_ofLengths (lengths : List Nat) : (Tree.ofLengths lengths).Branches := by
  have used : ∀ p ∈ Tree.ordered lengths, p.1 ≠ 0 := by
    intro p mem
    obtain ⟨n, -, mem⟩ := List.mem_flatMap.1 mem
    have := (List.mem_filter.1 (List.mem_filter.1 mem).1).2
    simpa using this
  unfold Tree.ofLengths
  split
  · exact ⟨_, _, rfl⟩
  · cases ordered : Tree.ordered lengths with
    | nil => contradiction
    | cons p rest =>
      obtain ⟨length, symbol⟩ := p
      have ne : length ≠ 0 := used (length, symbol) (ordered ▸ List.mem_cons_self)
      unfold Tree.grow
      simp only [ne, if_false]
      exact ⟨_, _, rfl⟩

/-- A word of a tree that branches takes a bit. -/
theorem left_decode {tree : Tree} {symbol : Nat} (branches : tree.Branches) (h : tree.decode r = .ok (symbol, r')) :
    r'.left < r.left := by
  obtain ⟨zero, one, rfl⟩ := branches
  rw [Tree.decode] at h
  split at h
  · cases h
  · next b r₁ first =>
    have one := left_next first
    split at h
    · have le := (decode_takes h).left_le
      omega
    · have le := (decode_takes h).left_le
      omega

theorem readRange_takes {ranges : Ranges} {symbol value : Nat} (h : readRange ranges symbol r = .ok (value, r')) :
    Bits.Takes (fun _ s s' => readRange ranges symbol s = .ok (value, s')) r r' := by
  rw [readRange] at h
  split at h
  · cases h
  · next least extra here =>
    split at h
    · cases h
    · next offset r₁ read =>
      cases h
      refine (read_takes read).mono ?_
      intro _ s s' read
      simp only [readRange, here, read]

variable {literals distances : Tree}

/-- The ways of reading a token: a literal, the end of the block, or a copy. -/
theorem readToken_cases {token : Option Token} (h : readToken literals distances r = .ok (token, r')) :
    ∃ symbol r₁, literals.decode r = .ok (symbol, r₁) ∧
      ((symbol < 256 ∧ token = some (.literal symbol.toUInt8) ∧ r' = r₁) ∨
        (symbol = endOfBlock ∧ token = none ∧ r' = r₁) ∨
        ¬ symbol < 256 ∧ symbol ≠ endOfBlock ∧ ∃ length r₂ symbol' r₃ distance,
          readRange lengthRanges (symbol - 257) r₁ = .ok (length, r₂) ∧ distances.decode r₂ = .ok (symbol', r₃) ∧
          readRange distanceRanges symbol' r₃ = .ok (distance, r') ∧ token = some (.copy length distance)) := by
  rw [readToken] at h
  split at h
  · cases h
  · next symbol r₁ word =>
    refine ⟨symbol, r₁, word, ?_⟩
    split at h
    · next literal =>
      cases h
      exact .inl ⟨literal, rfl, rfl⟩
    · next long =>
      split at h
      · next ends =>
        cases h
        exact .inr (.inl ⟨ends, rfl, rfl⟩)
      · next goes =>
        split at h
        · cases h
        · next length r₂ ranged =>
          split at h
          · cases h
          · next symbol' r₃ word' =>
            split at h
            · cases h
            · next distance r₄ ranged' =>
              cases h
              exact .inr (.inr ⟨long, goes, length, r₂, symbol', r₃, distance, ranged, word', ranged', rfl⟩)

theorem readToken_takes {token : Option Token} (h : readToken literals distances r = .ok (token, r')) :
    Bits.Takes (fun _ s s' => readToken literals distances s = .ok (token, s')) r r' := by
  obtain ⟨symbol, r₁, word, ⟨literal, rfl, rfl⟩ | ⟨rfl, rfl, rfl⟩ | ⟨long, goes, copy⟩⟩ := readToken_cases h
  · refine (decode_takes word).mono ?_
    intro _ s s' word
    simp only [readToken, word, literal, if_true]
  · refine (decode_takes word).mono ?_
    intro _ s s' word
    simp only [readToken, word]
    rfl
  · obtain ⟨length, r₂, symbol', r₃, distance, ranged, word', ranged', rfl⟩ := copy
    have run := (decode_takes word).seq ((readRange_takes ranged).seq ((decode_takes word').seq
      (readRange_takes ranged')))
    refine run.mono ?_
    rintro _ s s' ⟨s₁, word, s₂, ranged, s₃, word', ranged'⟩
    simp only [readToken, word, long, goes, if_false, ranged, word', ranged']

theorem left_readToken {token : Option Token} (branches : literals.Branches)
    (h : readToken literals distances r = .ok (token, r')) : r'.left < r.left := by
  obtain ⟨symbol, r₁, word, ways⟩ := readToken_cases h
  have lt := left_decode branches word
  obtain ⟨-, -, rfl⟩ | ⟨-, -, rfl⟩ | ⟨-, -, length, r₂, symbol', r₃, distance, ranged, word', ranged', -⟩ := ways
  · exact lt
  · exact lt
  · have le₂ := (readRange_takes ranged).left_le
    have le₃ := (decode_takes word').left_le
    have le₄ := (readRange_takes ranged').left_le
    omega

/-- **The tokens of a block**: each of them takes a bit. -/
theorem readTokens_takes (branches : literals.Branches) {fuel : Nat} : ∀ {r : Bits} {out out' : Array UInt8},
    readTokens literals distances out r fuel = .ok (out', r') →
    Bits.Takes (fun fuel s s' => readTokens literals distances out s fuel = .ok (out', s')) r r' := by
  -- on the fuel of the run that is there; those that are promised have fuel of their own
  induction fuel with
  | zero => exact fun h => nomatch h
  | succ fuel ih =>
    intro r out out' h
    rw [readTokens] at h
    split at h
    · cases h
    · next r₁ ends =>
      cases h
      refine ((readToken_takes ends).step (left_readToken branches ends) (.stay r')).mono ?_
      rintro _ s s'' ⟨less, s', rfl, ends, rfl⟩
      simp only [readTokens, ends]
    · next token r₁ read =>
      refine ((readToken_takes read).step (left_readToken branches read) (ih h)).mono ?_
      rintro _ s s'' ⟨less, s', rfl, read, others⟩
      simp only [readTokens, read, others]

end Tokens

/-! ## Stored blocks and dynamic codes -/

section Codes

variable {r r' : Bits}

theorem readStored_takes {out out' : Array UInt8} (h : readStored out r = .ok (out', r')) :
    Bits.Takes (fun _ s s' => readStored out s = .ok (out', s')) r r' := by
  obtain ⟨opened, all⟩ := r
  unfold readStored at h
  split at h
  · next a b c d bytes here =>
    obtain rfl : all = a :: b :: c :: d :: bytes := here
    dsimp only at h
    generalize eq : a.toNat + 256 * b.toNat = length at h
    split at h
    · next complement =>
      split at h
      · next whole =>
        cases h
        refine ⟨?_, a :: b :: c :: d :: bytes.take length, ?_, fun more _ _ => ?_⟩
        · simp only [Bits.left_eq, Bits.ofBytes, List.length_drop, List.length_cons, List.length_nil]
          omega
        · simp only [Bits.ofBytes, List.cons_append, List.take_append_drop]
        · simp only [readStored, Bits.align, Bits.ofBytes, List.cons_append, eq, complement, and_self, if_true,
            List.take_left' whole, List.drop_left' whole, whole]
      · cases h
    · cases h
  · cases h

theorem readTriples_takes {count : Nat} : ∀ {r : Bits} {done triples : List Nat},
    readTriples done r count = .ok (triples, r') →
    Bits.Takes (fun _ s s' => readTriples done s count = .ok (triples, s')) r r' := by
  induction count with
  | zero =>
    intro r done triples h
    cases h
    exact .nothing fun _ _ => rfl
  | succ count ih =>
    intro r done triples h
    rw [readTriples] at h
    split at h
    · cases h
    · next n r₁ read =>
      refine ((read_takes read).seq (ih h)).mono ?_
      rintro _ s s'' ⟨s', read, others⟩
      simp only [readTriples, read, others]

/-- A symbol that stands for a run is refused, or read with some bits that tell how long the run is. -/
theorem readRun_eq (previous : Option Nat) {symbol : Nat} (long : ¬ symbol < 16) :
    (∀ s, readRun previous symbol s = .error .corrupt) ∨ ∃ length least width, ∀ s,
      readRun previous symbol s = (s.read width).map fun p => ((length, least + p.1), p.2) := by
  by_cases again : symbol = 16
  · subst again
    cases previous with
    | none => exact .inl fun _ => rfl
    | some length =>
      refine .inr ⟨length, 3, 2, fun s => ?_⟩
      simp only [readRun, long, if_false, if_true]
      cases s.read 2 <;> rfl
  · by_cases few : symbol = 17
    · subst few
      refine .inr ⟨0, 3, 3, fun s => ?_⟩
      simp only [readRun, long, again, if_false, if_true]
      cases s.read 3 <;> rfl
    · refine .inr ⟨0, 11, 7, fun s => ?_⟩
      simp only [readRun, long, again, few, if_false]
      cases s.read 7 <;> rfl

theorem readRun_takes {previous : Option Nat} {symbol : Nat} {run : Nat × Nat}
    (h : readRun previous symbol r = .ok (run, r')) :
    Bits.Takes (fun _ s s' => readRun previous symbol s = .ok (run, s')) r r' := by
  by_cases short : symbol < 16
  · simp only [readRun, short, if_true] at h
    cases h
    refine .nothing fun _ _ => ?_
    simp only [readRun, short, if_true]
  · obtain corrupt | ⟨length, least, width, eq⟩ := readRun_eq previous short
    · rw [corrupt] at h
      cases h
    · rw [eq] at h
      cases read : r.read width with
      | error e =>
        rw [read] at h
        cases h
      | ok p =>
        obtain ⟨n, r₁⟩ := p
        rw [read] at h
        cases h
        refine (read_takes read).mono ?_
        intro _ s s' read
        rw [eq, read]
        rfl

theorem readLengths_takes {tree : Tree} {fuel : Nat} : ∀ {r : Bits} {done lengths : List Nat} {missing : Nat},
    readLengths tree done missing r fuel = .ok (lengths, r') →
    Bits.Takes (fun _ s s' => readLengths tree done missing s fuel = .ok (lengths, s')) r r' := by
  induction fuel with
  | zero =>
    intro r done lengths missing h
    rw [readLengths] at h
    split at h
    · next all =>
      cases h
      refine .nothing fun _ _ => ?_
      simp only [readLengths, all, if_true]
    · cases h
  | succ fuel ih =>
    intro r done lengths missing h
    rw [readLengths] at h
    split at h
    · next all =>
      cases h
      refine .nothing fun _ _ => ?_
      simp only [readLengths, all, if_true]
    · next more =>
      split at h
      · cases h
      · next symbol r₁ word =>
        split at h
        · cases h
        · next length times r₂ run =>
          split at h
          · next le =>
            refine ((decode_takes word).seq ((readRun_takes run).seq (ih h))).mono ?_
            rintro _ s s' ⟨s₁, word, s₂, run, others⟩
            simp only [readLengths, more, if_false, word, run, le, if_true, others]
          · cases h

/-- What the two codes of a block are read from, in order. -/
theorem readCodes_cases {codes : Tree × Tree} (h : readCodes r = .ok (codes, r')) :
    ∃ literals r₁ distances r₂ count r₃ triples r₄ lengths, r.read 5 = .ok (literals, r₁) ∧
      r₁.read 5 = .ok (distances, r₂) ∧ r₂.read 4 = .ok (count, r₃) ∧
      ¬ (286 < literals + 257 ∨ 30 < distances + 1) ∧ readTriples [] r₃ (count + 4) = .ok (triples, r₄) ∧
      Tree.isComplete (lengthCode triples) = true ∧
      readLengths (.ofLengths (lengthCode triples)) [] (literals + 257 + (distances + 1)) r₄
        (literals + 257 + (distances + 1)) = .ok (lengths, r') ∧
      (Tree.isUsable (lengths.splitAt (literals + 257)).1 = true ∧
        Tree.isUsable (lengths.splitAt (literals + 257)).2 = true) ∧
      codes = (.ofLengths (lengths.splitAt (literals + 257)).1, .ofLengths (lengths.splitAt (literals + 257)).2) := by
  unfold readCodes at h
  obtain ⟨⟨literals, r₁⟩, five, h⟩ := bind_eq_ok.1 h
  obtain ⟨⟨distances, r₂⟩, five', h⟩ := bind_eq_ok.1 h
  obtain ⟨⟨count, r₃⟩, four, h⟩ := bind_eq_ok.1 h
  obtain ⟨few, h⟩ := refuse_eq_ok.1 h
  obtain ⟨⟨triples, r₄⟩, code, h⟩ := bind_eq_ok.1 h
  obtain ⟨complete, h⟩ := refuse_eq_ok.1 h
  obtain ⟨⟨lengths, r₅⟩, words, h⟩ := bind_eq_ok.1 h
  obtain ⟨usable, h⟩ := refuse_eq_ok.1 h
  cases h
  have both : ∀ {a b : Bool}, ¬ (!a || !b) = true → a = true ∧ b = true := by decide
  exact ⟨literals, r₁, distances, r₂, count, r₃, triples, r₄, lengths, five, five', four, few, code,
    by simpa using complete, words, both usable, rfl⟩

theorem readCodes_takes {codes : Tree × Tree} (h : readCodes r = .ok (codes, r')) :
    Bits.Takes (fun _ s s' => readCodes s = .ok (codes, s')) r r' := by
  obtain ⟨_, _, _, _, _, _, _, _, _, literals, distances, count, few, triples, complete, lengths, usable, rfl⟩ :=
    readCodes_cases h
  have run := (read_takes literals).seq ((read_takes distances).seq ((read_takes count).seq
    ((readTriples_takes triples).seq (readLengths_takes lengths))))
  refine run.mono ?_
  rintro _ s s' ⟨s₁, literals, s₂, distances, s₃, count, s₄, triples, lengths⟩
  simp only [readCodes, bind, Except.bind, pure, Except.pure, literals, distances, count, few, triples, complete,
    lengths, usable, Bool.not_true, Bool.or_self, Bool.false_eq_true, if_false]

/-- The codes of a block branch. -/
theorem branches_readCodes {codes : Tree × Tree} (h : readCodes r = .ok (codes, r')) : codes.1.Branches := by
  obtain ⟨_, _, _, _, _, _, _, _, _, -, -, -, -, -, -, -, -, rfl⟩ := readCodes_cases h
  exact branches_ofLengths _

end Codes

/-! ## Blocks -/

section Blocks

variable {r' : Bits} {out' : Array UInt8}

theorem readBlock_takes {kind fuel : Nat} {r : Bits} {out : Array UInt8}
    (h : readBlock kind out r fuel = .ok (out', r')) :
    Bits.Takes (fun fuel s s' => readBlock kind out s fuel = .ok (out', s')) r r' := by
  unfold readBlock at h
  split at h
  · exact readStored_takes h
  · exact readTokens_takes (branches_ofLengths _) h
  · split at h
    · cases h
    · next literals distances r₁ codes =>
      refine ((readCodes_takes codes).seq (readTokens_takes (branches_readCodes codes) h)).mono ?_
      rintro _ s s' ⟨s₁, codes, tokens⟩
      simp only [readBlock, codes, tokens]
  · cases h

/-- **Blocks up to the last one**: each of them takes a bit. The limit of their tokens may be larger than the number of
blocks that are left, by any number. -/
theorem readBlocks_takes {fuel : Nat} : ∀ {more : Nat} {r : Bits} {out : Array UInt8},
    readBlocks (fuel + more) out r fuel = .ok (out', r') →
    Bits.Takes (fun fuel s s' => readBlocks (fuel + more) out s fuel = .ok (out', s')) r r' := by
  induction fuel with
  | zero => exact fun h => nomatch h
  | succ fuel ih =>
    intro more r out h
    rw [readBlocks] at h
    split at h
    · cases h
    · next last r₁ flag =>
      split at h
      · cases h
      · next kind r₂ two =>
        split at h
        · cases h
        · next out₁ r₃ contents =>
          have block := (read_takes flag).seq ((read_takes two).seq ((readBlock_takes contents).fuel_add more))
          have lt : r₃.left < r.left := by
            have one := left_read flag
            have le := (read_takes two).left_le
            have le' := (readBlock_takes contents).left_le
            omega
          split at h
          · next ends =>
            cases h
            refine (block.step lt (.stay r')).mono ?_
            rintro _ s s'' ⟨less, s', rfl, ⟨s₁, flag, s₂, two, contents⟩, rfl⟩
            simp only [readBlocks, flag, two, contents, ends, if_true]
          · next goes =>
            rw [Nat.add_assoc, Nat.add_comm 1] at h
            refine (block.step lt (ih h)).mono ?_
            rintro _ s s'' ⟨less, s', rfl, ⟨s₁, flag, s₂, two, contents⟩, others⟩
            rw [Nat.add_assoc, Nat.add_comm 1] at contents ⊢
            simp only [readBlocks, flag, two, contents, goes, if_false, others]

/-- **Deflate data** are taken whole, and what follows them is not looked at. -/
theorem inflate_takes {bytes rest : List UInt8} {out : Array UInt8} (h : inflate bytes = .ok (out, rest)) :
    Takes (fun bytes rest => inflate bytes = .ok (out, rest)) bytes rest := by
  unfold inflate at h
  dsimp only at h
  split at h
  · cases h
  · next out r blocks =>
    cases h
    have blocks : readBlocks (8 * bytes.length + 0) #[] (.ofBytes bytes) (8 * bytes.length) = .ok (out, r) := blocks
    obtain ⟨taken, split, run⟩ := (readBlocks_takes blocks).bytes
    refine ⟨taken, split, fun more => ?_⟩
    have enough : (Bits.ofBytes bytes).left ≤ r.left + 8 * (taken ++ more).length := by
      have split : bytes = taken ++ r.bytes := split
      rw [Bits.left_eq, Bits.left_eq, split]
      simp only [Bits.ofBytes, List.length_append, List.length_nil]
      omega
    have blocks : readBlocks (8 * (taken ++ more).length) #[] (.ofBytes (taken ++ more)) (8 * (taken ++ more).length) =
        .ok (out, ⟨r.opened, more⟩) := run more _ enough
    simp only [inflate, blocks]

end Blocks

end ResponseCache.Gzip
