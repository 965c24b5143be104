import PortVpn.Config.Parseline
import PortVpn.Lib.UniqueReading

/-!
# The grammar of a line

A line of an OpenVPN configuration is a sequence of arguments between white space, with a comment
at the end. `Reads` is that grammar, with the arguments as they are written; `Reads.unique` shows
that a line can be read in one way only, so that its arguments denote one list of texts.
-/

set_option autoImplicit false

namespace PortVpn.Config

open PortVpn.Lib

/-! ## Arguments as they are written -/

/-- What a backslash may precede. A zero byte counts as white space. -/
def escapable (c : Char) : Bool := c == '\\' || c == '"' || space c

/-- A character of an argument, alone or behind a backslash. -/
inductive Piece where
  | plain (c : Char)
  | escaped (c : Char)
  deriving DecidableEq, Repr

namespace Piece

/-- The character that is denoted. -/
def char : Piece → Char
  | plain c => c
  | escaped c => c

/-- The characters that are written. -/
def source : Piece → Text
  | plain c => [c]
  | escaped c => ['\\', c]

/-- A character alone is no backslash and does not close the argument. -/
def WellFormed (closes : Char → Bool) : Piece → Prop
  | plain c => closes c = false ∧ c ≠ '\\'
  | escaped c => escapable c

instance (closes : Char → Bool) : DecidablePred (WellFormed closes)
  | plain _ => inferInstanceAs (Decidable (_ ∧ _))
  | escaped _ => inferInstanceAs (Decidable (_ = true))

/-- A piece that can be the first one of an argument without quotes. -/
def Starts : Piece → Prop
  | plain c => startsBare c
  | escaped _ => True

instance : DecidablePred Starts
  | plain _ => inferInstanceAs (Decidable (_ = true))
  | escaped _ => inferInstanceAs (Decidable True)

/-- White space behind a backslash. -/
def EscapedSpace : Piece → Prop
  | plain _ => False
  | escaped c => space c

instance : DecidablePred EscapedSpace
  | plain _ => inferInstanceAs (Decidable False)
  | escaped _ => inferInstanceAs (Decidable (_ = true))

end Piece

/-- The text of a list of pieces. -/
def written (ps : List Piece) : Text := ps.flatMap Piece.source

@[simp] theorem written_nil : written [] = [] := rfl

@[simp] theorem written_plain (c : Char) (ps : List Piece) :
    written (.plain c :: ps) = c :: written ps := rfl

@[simp] theorem written_escaped (c : Char) (ps : List Piece) :
    written (.escaped c :: ps) = '\\' :: c :: written ps := rfl

/-- An argument as it is written. -/
inductive Argument where
  | unquoted (ps : List Piece)
  | double (ps : List Piece)
  | single (t : Text)
  deriving DecidableEq, Repr

namespace Argument

/-- What the argument stands for. -/
def denotes : Argument → Text
  | unquoted ps => ps.map Piece.char
  | double ps => ps.map Piece.char
  | single t => t

/-- The argument without its closing quote. -/
def opening : Argument → Text
  | unquoted ps => written ps
  | double ps => '"' :: written ps
  | single t => '\'' :: t

def source : Argument → Text
  | unquoted ps => written ps
  | double ps => '"' :: (written ps ++ ['"'])
  | single t => '\'' :: (t ++ ['\''])

def WellFormed : Argument → Prop
  | unquoted ps => (∀ p ∈ ps, p.WellFormed space) ∧ ∃ p, ps.head? = some p ∧ p.Starts
  | double ps => ∀ p ∈ ps, p.WellFormed (· == '"')
  | single t => '\'' ∉ t

end Argument

/-- An argument may end here: at the end of the line or at white space. -/
def Separated (t : Text) : Prop := ∀ c, t.head? = some c → space c

/-- **The grammar of a line**, from a place on where an argument could start. -/
inductive Reads : Text → List Argument → Prop where
  | done : Reads [] []
  | comment {c : Char} (t : Text) : c = ';' ∨ c = '#' → Reads (c :: t) []
  | blank {c : Char} {t : Text} {as : List Argument} : space c → Reads t as → Reads (c :: t) as
  | argument {a : Argument} {t : Text} {as : List Argument} :
      a.WellFormed → Separated t → Reads t as → Reads (a.source ++ t) (a :: as)

/-- The line has a reading. -/
def Grammatical (line : Text) : Prop := ∃ as, Reads line as

/-! ## One reading only -/

/-- Nothing that a reader stops at, and no backslash, starts a piece. -/
theorem Piece.WellFormed.head {closes : Char → Bool} {p : Piece} (h : p.WellFormed closes)
    (hback : closes '\\' = false) (t : Text) :
    ∃ c rest, p.source ++ t = c :: rest ∧ closes c = false := by
  cases p with
  | plain c => exact ⟨c, t, rfl, h.1⟩
  | escaped c => exact ⟨'\\', c :: t, rfl, hback⟩

/-- Pieces up to a character that closes them. -/
theorem written_inj {closes : Char → Bool} (hback : closes '\\' = false) {ps qs : List Piece}
    {t u : Text} (hps : ∀ p ∈ ps, p.WellFormed closes) (hqs : ∀ q ∈ qs, q.WellFormed closes)
    (ht : ∀ c, t.head? = some c → closes c) (hu : ∀ c, u.head? = some c → closes c)
    (h : written ps ++ t = written qs ++ u) : ps = qs ∧ t = u := by
  -- a piece does not begin with a character that closes
  have hstop : ∀ (p : Piece) (rest v w : Text), p.WellFormed closes →
      (∀ c, v.head? = some c → closes c) → v ≠ p.source ++ rest := by
    intro p rest v _ hp hv heq
    obtain ⟨c, r, hcr, hc⟩ := hp.head hback rest
    have hclosed := hv c (by rw [heq, hcr]; rfl)
    rw [hc] at hclosed
    exact Bool.false_ne_true hclosed
  induction ps generalizing qs with
  -- where one side ends, the other has no piece left
  | nil =>
      cases qs with
      | nil => exact ⟨rfl, h⟩
      | cons q qs =>
          have h : t = q.source ++ (written qs ++ u) := by
            rw [← List.append_assoc]
            exact h
          exact absurd h (hstop q _ t t (hqs q List.mem_cons_self) ht)
  | cons p ps ih =>
      obtain ⟨hp, htail⟩ := List.forall_mem_cons.1 hps
      cases qs with
      | nil =>
          have h : u = p.source ++ (written ps ++ t) := by
            rw [← List.append_assoc]
            exact h.symm
          exact absurd h (hstop p _ u u hp hu)
      | cons q qs =>
          obtain ⟨hq, htail'⟩ := List.forall_mem_cons.1 hqs
          cases p with
          -- the first character tells a plain piece from an escaped one
          | plain c =>
              cases q with
              | plain d =>
                  obtain ⟨rfl, hrest⟩ := List.cons.inj h
                  obtain ⟨rfl, htu⟩ := ih htail htail' hrest
                  exact ⟨rfl, htu⟩
              | escaped d => exact absurd (List.cons.inj h).1 hp.2
          | escaped c =>
              cases q with
              | plain d => exact absurd (List.cons.inj h).1.symm hq.2
              | escaped d =>
                  obtain ⟨rfl, hrest⟩ := List.cons.inj (List.cons.inj h).2
                  obtain ⟨rfl, htu⟩ := ih htail htail' hrest
                  exact ⟨rfl, htu⟩

namespace Argument

variable {a b : Argument} {t u : Text}

/-- The first character of an argument tells its kind. -/
def Opens : Argument → Char → Prop
  | unquoted _, c => startsBare c ∨ c = '\\'
  | double _, c => c = '"'
  | single _, c => c = '\''

theorem WellFormed.opens (h : a.WellFormed) :
    ∃ c, a.Opens c ∧ ∀ t, (a.source ++ t).head? = some c := by
  cases a with
  | unquoted ps =>
      obtain ⟨-, p, hp, hstarts⟩ := h
      obtain ⟨ps, rfl⟩ := List.head?_eq_some_iff.1 hp
      cases p with
      | plain c => exact ⟨c, Or.inl hstarts, fun _ => rfl⟩
      | escaped c => exact ⟨'\\', Or.inr rfl, fun _ => rfl⟩
  | double ps => exact ⟨'"', rfl, fun _ => rfl⟩
  | single w => exact ⟨'\'', rfl, fun _ => rfl⟩

/-- An argument does not start as a comment or white space does. -/
theorem Opens.not_blank {c : Char} (h : a.Opens c) :
    space c = false ∧ c ≠ ';' ∧ c ≠ '#' := by
  cases a with
  | unquoted ps =>
      rcases h with h | rfl
      · simp only [startsBare, Bool.and_eq_true, Bool.not_eq_true', Bool.or_eq_false_iff,
          beq_eq_false_iff_ne] at h
        exact ⟨h.1, h.2.1.1.1.1, h.2.1.1.1.2⟩
      · decide
  | double ps =>
      obtain rfl : c = '"' := h
      decide
  | single w =>
      obtain rfl : c = '\'' := h
      decide

/-- **An argument can be told from the line.** -/
theorem source_inj (ha : a.WellFormed) (hb : b.WellFormed) (ht : Separated t) (hu : Separated u)
    (h : a.source ++ t = b.source ++ u) : a = b ∧ t = u := by
  obtain ⟨c, hopen, hhead⟩ := ha.opens
  obtain ⟨c', hopen', hhead'⟩ := hb.opens
  obtain rfl : c = c' := by
    have hsome := hhead t
    rw [h, hhead' u] at hsome
    exact (Option.some.inj hsome).symm
  have hquotes : startsBare '"' = false ∧ startsBare '\'' = false := by decide
  cases a with
  | unquoted ps =>
      cases b with
      | unquoted qs =>
          obtain ⟨rfl, htu⟩ := written_inj (by decide) ha.1 hb.1 ht hu h
          exact ⟨rfl, htu⟩
      | double qs =>
          obtain rfl : c = '"' := hopen'
          simp [Opens, hquotes] at hopen
      | single w =>
          obtain rfl : c = '\'' := hopen'
          simp [Opens, hquotes] at hopen
  | double ps =>
      obtain rfl : c = '"' := hopen
      cases b with
      | unquoted qs => simp [Opens, hquotes] at hopen'
      | double qs =>
          -- both end at the first double quote
          have hrest : written ps ++ '"' :: t = written qs ++ '"' :: u := by
            simpa [source] using h
          obtain ⟨rfl, htu⟩ := written_inj (by decide) ha hb (by simp) (by simp) hrest
          exact ⟨rfl, (List.cons.inj htu).2⟩
      | single w => exact absurd (show '"' = '\'' from hopen') (by decide)
  | single v =>
      obtain rfl : c = '\'' := hopen
      cases b with
      | unquoted qs => simp [Opens, hquotes] at hopen'
      | double qs => exact absurd (show '\'' = '"' from hopen') (by decide)
      | single w =>
          have hrest : v ++ '\'' :: t = w ++ '\'' :: u := by
            simpa [source] using h
          obtain ⟨rfl, htu⟩ := append_cons_inj ha hb hrest
          exact ⟨rfl, htu⟩

end Argument

/-- **A line has one reading.** -/
theorem Reads.unique {t : Text} {as bs : List Argument} (ha : Reads t as) (hb : Reads t bs) :
    as = bs := by
  induction ha generalizing bs with
  -- the first character decides: blanks, comments and arguments open differently
  | done =>
      generalize ht : ([] : Text) = t at hb
      cases hb with
      | done => rfl
      | comment | blank => cases ht
      | @argument a u as hwf hsep hrest =>
          obtain ⟨c, -, hhead⟩ := hwf.opens
          have hd := hhead u
          rw [← ht] at hd
          cases hd
  | @comment c t hc =>
      generalize ht : c :: t = t' at hb
      cases hb with
      | done => rfl
      | comment => rfl
      | blank hblank =>
          obtain ⟨rfl, -⟩ := List.cons.inj ht
          rcases hc with rfl | rfl
          · exact absurd hblank (by decide)
          · exact absurd hblank (by decide)
      -- no argument opens with the sign of a comment
      | @argument a u as hwf hsep hrest =>
          obtain ⟨d, hopen, hhead⟩ := hwf.opens
          have hd := hhead u
          rw [← ht] at hd
          obtain rfl : c = d := Option.some.inj hd
          obtain ⟨-, hsemi, hhash⟩ := hopen.not_blank
          rcases hc with rfl | rfl
          · exact absurd rfl hsemi
          · exact absurd rfl hhash
  | @blank c t as hblank hrest ih =>
      generalize ht : c :: t = t' at hb
      cases hb with
      | done => cases ht
      | comment u hc =>
          obtain ⟨rfl, -⟩ := List.cons.inj ht
          rcases hc with rfl | rfl
          · exact absurd hblank (by decide)
          · exact absurd hblank (by decide)
      | blank hblank' hrest' =>
          obtain ⟨rfl, rfl⟩ := List.cons.inj ht
          exact ih hrest'
      | @argument a u as hwf hsep hrest' =>
          obtain ⟨d, hopen, hhead⟩ := hwf.opens
          have hd := hhead u
          rw [← ht] at hd
          obtain rfl : c = d := Option.some.inj hd
          rw [hopen.not_blank.1] at hblank
          exact absurd hblank Bool.false_ne_true
  | @argument a t as hwf hsep hrest ih =>
      obtain ⟨d, hopen, hhead⟩ := hwf.opens
      have hd := hhead t
      generalize ht : a.source ++ t = t' at hb hd
      cases hb with
      | done => cases hd
      | comment u hc =>
          obtain rfl := Option.some.inj hd
          obtain ⟨-, hsemi, hhash⟩ := hopen.not_blank
          rcases hc with rfl | rfl
          · exact absurd rfl hsemi
          · exact absurd rfl hhash
      | blank hblank =>
          obtain rfl := Option.some.inj hd
          rw [hopen.not_blank.1] at hblank
          exact absurd hblank Bool.false_ne_true
      -- two arguments with the same source are the same, and the rest has one reading
      | argument hwf' hsep' hrest' =>
          obtain ⟨rfl, rfl⟩ := Argument.source_inj hwf hwf' hsep hsep' ht
          rw [ih hrest']

end PortVpn.Config
