import TableQuery.Expression.Bound
import TableQuery.Proofs.Expression.Phrases

/-!
# The parts of expressions

The parts of an expression outside of functions keep their place when the expression is
bound, so that each has a meaning inside the meaning of the whole.  A part that is a name
stands among the tokens of the expression as a word of its own: behind no dot, and before
no list of arguments.
-/

namespace TableQuery

/-- The arguments of a call. -/
def Bound.arguments : Bound → List Bound
  | call _ args => args
  | userCall _ _ args => args
  | aggregate _ _ arg _ => [arg]
  | unfold arg => [arg]
  | _ => []

/-- Whether an expression is part of another one, outside of functions, and means this in
the meaning of the other one.  The name of a record as a whole is no part where an attribute
or a subscript of it means a field. -/
inductive Expr.Part (part : Expr) (meaning : Bound) : Expr → Bound → Prop
  | self : Part part meaning part meaning
  | item {es : List Expr} {bs : List Bound} {e : Expr} {b : Bound} (hmem : (e, b) ∈ es.zip bs)
    (h : Part part meaning e b) : Part part meaning (.list es) (.list bs)
  | base {e : Expr} {b : Bound} (i : Expr) (i' : Bound) (h : Part part meaning e b) :
    Part part meaning (.index e i) (.index b i')
  | subscript (base : Expr) (base' : Bound) {e : Expr} {b : Bound}
    (h : Part part meaning e b) : Part part meaning (.index base e) (.index base' b)
  | argument (f : String) {args : List Expr} {whole : Bound} {e : Expr} {b : Bound}
    (hmem : (e, b) ∈ args.zip whole.arguments) (h : Part part meaning e b) :
    Part part meaning (.call f args) whole
  | left {op : BinaryOp} {e : Expr} {b : Bound} (right : Expr) (right' : Bound)
    (h : Part part meaning e b) : Part part meaning (.binary op e right) (.binary op b right')
  | right {op : BinaryOp} (left : Expr) (left' : Bound) {e : Expr} {b : Bound}
    (h : Part part meaning e b) : Part part meaning (.binary op left e) (.binary op left' b)
  | operand {op : UnaryOp} {e : Expr} {b : Bound} (h : Part part meaning e b) :
    Part part meaning (.unary op e) (.unary op b)
  | tested {negated : Bool} {e : Expr} {b : Bound} (h : Part part meaning e b) :
    Part part meaning (.isNull negated e) (.isNull negated b)
  | condition {e : Expr} {b : Bound} (chosen otherwise : Expr) (chosen' otherwise' : Bound)
    (h : Part part meaning e b) :
    Part part meaning (.choice e chosen otherwise) (.choice b chosen' otherwise')
  | chosen (condition otherwise : Expr) (condition' otherwise' : Bound) {e : Expr} {b : Bound}
    (h : Part part meaning e b) :
    Part part meaning (.choice condition e otherwise) (.choice condition' b otherwise')
  | otherwise (condition chosen : Expr) (condition' chosen' : Bound) {e : Expr} {b : Bound}
    (h : Part part meaning e b) :
    Part part meaning (.choice condition chosen e) (.choice condition' chosen' b)

/-- Whether an expression stands in another one, outside of functions. -/
inductive Expr.Contains (part : Expr) : Expr → Prop
  | self : Contains part part
  | item {es : List Expr} {e : Expr} (hmem : e ∈ es) (h : Contains part e) :
    Contains part (.list es)
  | owner (name : String) {e : Expr} (h : Contains part e) : Contains part (.attribute e name)
  | base (i : Expr) {e : Expr} (h : Contains part e) : Contains part (.index e i)
  | subscript (base : Expr) {e : Expr} (h : Contains part e) : Contains part (.index base e)
  | argument (f : String) {args : List Expr} {e : Expr} (hmem : e ∈ args) (h : Contains part e) :
    Contains part (.call f args)
  | left {op : BinaryOp} (right : Expr) {e : Expr} (h : Contains part e) :
    Contains part (.binary op e right)
  | right {op : BinaryOp} (left : Expr) {e : Expr} (h : Contains part e) :
    Contains part (.binary op left e)
  | operand {op : UnaryOp} {e : Expr} (h : Contains part e) : Contains part (.unary op e)
  | tested {negated : Bool} {e : Expr} (h : Contains part e) : Contains part (.isNull negated e)
  | condition (chosen otherwise : Expr) {e : Expr} (h : Contains part e) :
    Contains part (.choice e chosen otherwise)
  | chosen (condition otherwise : Expr) {e : Expr} (h : Contains part e) :
    Contains part (.choice condition e otherwise)
  | otherwise (condition chosen : Expr) {e : Expr} (h : Contains part e) :
    Contains part (.choice condition chosen e)

namespace Expr

/-- Whether an expression is a name, an attribute or a subscript, though not the name of a
record as a whole. -/
def isReference : Expr → Bool
  | name s => s != "a" && s != "b"
  | .attribute _ _ | index _ _ => true
  | _ => false

mutual

/-- Whether a name is part of an expression, outside of functions. -/
def mentions (s : String) : Expr → Bool
  | null | bool _ | int _ | float _ | text _ => false
  | name t => t == s
  | list items => anyMentions s items
  | .attribute base _ => base.mentions s
  | index base i => base.mentions s || i.mentions s
  | call _ args => anyMentions s args
  | binary _ left right => left.mentions s || right.mentions s
  | unary _ operand => operand.mentions s
  | isNull _ operand => operand.mentions s
  | choice condition chosen otherwise =>
    condition.mentions s || chosen.mentions s || otherwise.mentions s
  | lambda _ _ => false

/-- Whether a name is part of any of some expressions. -/
def anyMentions (s : String) : List Expr → Bool
  | [] => false
  | e :: es => e.mentions s || anyMentions s es

end

theorem anyMentions_of_mem {s : String} {e : Expr} {es : List Expr} (hmem : e ∈ es)
    (h : e.mentions s) : anyMentions s es := by
  induction es with
  | nil => cases hmem
  | cons first es ih =>
    rw [anyMentions, Bool.or_eq_true]
    rcases List.mem_cons.mp hmem with rfl | hmem
    · exact .inl h
    · exact .inr (ih hmem)

theorem Part.mentions {s : String} {meaning : Bound} {e : Expr} {b : Bound}
    (h : Part (.name s) meaning e b) : e.mentions s := by
  induction h with
  | self => exact beq_self_eq_true s
  | item hmem _ ih => exact anyMentions_of_mem (List.of_mem_zip hmem).1 ih
  | argument f hmem _ ih => exact anyMentions_of_mem (List.of_mem_zip hmem).1 ih
  | operand _ ih | tested _ ih => exact ih
  | base _ _ _ ih | left _ _ _ ih => exact Bool.or_eq_true_iff.mpr (.inl ih)
  | subscript _ _ _ ih | right _ _ _ ih => exact Bool.or_eq_true_iff.mpr (.inr ih)
  | condition _ _ _ _ _ ih | chosen _ _ _ _ _ ih | otherwise _ _ _ _ _ ih =>
    simp [Expr.mentions, ih]

end Expr

namespace Token

variable {s : String} {ts us : List Token}

/-- Whether a token can stand right before an operand. -/
def introduces : Token → Bool
  | keyword _ => true
  | symbol s => s != .dot
  | _ => false

/-- Whether a name stands among tokens as a word of its own, neither as an attribute nor
as the name of a called function. -/
def StandsAlone (s : String) (tokens : List Token) : Prop :=
  ∃ before after, tokens = before ++ name s :: after ∧
    (∀ t ∈ before.getLast?, t.introduces) ∧ after.head? ≠ some (symbol .openParen)

theorem standsAlone_singleton (s : String) : StandsAlone s [name s] :=
  ⟨[], [], rfl, nofun, nofun⟩

theorem StandsAlone.behind (h : StandsAlone s ts) {t : Token} (ht : t.introduces)
    (us : List Token) : StandsAlone s (us ++ t :: ts) := by
  obtain ⟨before, after, rfl, hbefore, hafter⟩ := h
  refine ⟨us ++ t :: before, after, by simp, fun last hlast => ?_, hafter⟩
  rw [List.getLast?_append_cons, List.getLast?_cons] at hlast
  cases hb : before.getLast? with
  | none =>
    rw [hb] at hlast
    exact Option.some.inj hlast ▸ ht
  | some other =>
    rw [hb] at hlast
    exact hbefore last (hb.trans hlast)

theorem StandsAlone.cons (h : StandsAlone s ts) {t : Token} (ht : t.introduces) :
    StandsAlone s (t :: ts) :=
  h.behind ht []

theorem StandsAlone.append_right (h : StandsAlone s ts)
    (hhead : us.head? ≠ some (symbol .openParen)) : StandsAlone s (ts ++ us) := by
  obtain ⟨before, after, rfl, hbefore, hafter⟩ := h
  refine ⟨before, after ++ us, by simp, hbefore, ?_⟩
  cases after with
  | nil => exact hhead
  | cons t after => exact hafter

end Token

namespace Parser

open Token hiding text

theorem introduces_of_operatorOf? {t : Token} {op : BinaryOp} (h : operatorOf? t = some op) :
    t.introduces ∧ t ≠ symbol .openParen := by
  unfold operatorOf? at h
  split at h <;> first | exact ⟨rfl, nofun⟩ | cases h

theorem introduces_of_spellsOperator {op : BinaryOp} {ts : List Token} (h : SpellsOperator op ts) :
    ∃ front t, ts = front ++ [t] ∧ t.introduces ∧ ts.head? ≠ some (symbol .openParen) := by
  rcases h with ⟨t, rfl, ht⟩ | ⟨rfl, -⟩
  · obtain ⟨hintroduces, hne⟩ := introduces_of_operatorOf? ht
    exact ⟨[], t, rfl, hintroduces, fun h => hne (Option.some.inj h)⟩
  · exact ⟨[keyword .notWord], keyword .inWord, rfl, rfl, nofun⟩

theorem introduces_of_prefixTokens (op : UnaryOp) : ∀ t ∈ prefixTokens op, t.introduces := by
  cases op <;> decide

theorem head_ne_of_nullTests (negated : Bool) :
    ∀ ts ∈ nullTests negated, ts.head? ≠ some (symbol .openParen) := by
  cases negated <;> decide

mutual

/-- A name that is part of an expression stands alone among its tokens. -/
theorem Phrase.standsAlone {s : String} {ts : List Token} {e : Expr} :
    Phrase ts e → e.mentions s → StandsAlone s ts
  | .atom h, he => by
    unfold atom? at h
    split at h <;> cases h <;> first | cases he | skip
    rw [eq_of_beq he]
    exact standsAlone_singleton s
  | .paren h, he => ((Phrase.standsAlone h he).append_right (by simp)).cons rfl
  | .list h, he => (ItemPhrases.standsAlone h nofun he).cons rfl
  | .attribute s h, he => (Phrase.standsAlone h he).append_right (by simp)
  | .method f h hs, he => by
    rcases Bool.or_eq_true_iff.mp he with he | he
    · exact (Phrase.standsAlone h he).append_right (by simp)
    · rw [List.append_cons, List.append_cons]
      exact (ItemPhrases.standsAlone hs nofun he).behind rfl _
  | .call h hs, he => (ItemPhrases.standsAlone hs nofun he).behind rfl _
  | .index h h', he => by
    rcases Bool.or_eq_true_iff.mp he with he | he
    · exact (Phrase.standsAlone h he).append_right (by simp)
    · exact ((Phrase.standsAlone h' he).append_right (by simp)).behind rfl _
  | .unary hop h, he => (Phrase.standsAlone h he).cons (introduces_of_prefixTokens _ _ hop)
  | .binary h hop h', he => by
    obtain ⟨front, t, rfl, ht, hhead⟩ := introduces_of_spellsOperator hop
    rcases Bool.or_eq_true_iff.mp he with he | he
    · refine (Phrase.standsAlone h he).append_right ?_
      rwa [List.head?_append_of_ne_nil _ (by simp)]
    · rw [List.append_assoc, ← List.append_assoc]
      exact (Phrase.standsAlone h' he).behind ht _
  | .isNull h htest, he => (Phrase.standsAlone h he).append_right (head_ne_of_nullTests _ _ htest)
  | .choice h h' h'', he => by
    obtain he | he := Bool.or_eq_true_iff.mp he
    · obtain he | he := Bool.or_eq_true_iff.mp he
      · exact ((Phrase.standsAlone h' he).append_right (by simp)).behind rfl _
      · exact (Phrase.standsAlone h he).append_right (by simp)
    · rw [List.append_cons, ← List.append_assoc]
      exact (Phrase.standsAlone h'' he).behind rfl _
  | .lambda params h, he => nomatch he

theorem ItemPhrases.standsAlone {s : String} {close : Symbol} {ts : List Token} {es : List Expr} :
    ItemPhrases close ts es → close ≠ .openParen → Expr.anyMentions s es → StandsAlone s ts
  | .nil _, _, hes => nomatch hes
  | .last h, hclose, hes => by
    rw [Expr.anyMentions, Expr.anyMentions, Bool.or_false] at hes
    exact (Phrase.standsAlone h hes).append_right fun h => hclose (symbol.inj (Option.some.inj h))
  | .cons h hs, hclose, hes => by
    obtain he | hes := Bool.or_eq_true_iff.mp hes
    · exact (Phrase.standsAlone h he).append_right (by simp)
    · exact (ItemPhrases.standsAlone hs hclose hes).behind rfl _

end

end Parser
end TableQuery
