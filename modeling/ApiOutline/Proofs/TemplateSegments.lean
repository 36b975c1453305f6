/-
ApiOutline/Proofs/TemplateSegments.lean

Templates, written segment by segment and read back.

Design.  A segment of a template is plain text or one parameter, and a parameter is written in
braces or after a colon.  Colon tokens are read between slashes, which is where the segments
meet, so each segment is read by itself (`colonTokens_ofSegments`).  Tokens in braces are read
between closing braces: what stands in front of a token is the end of one segment and
plain segments up to the next parameter.  That text is what the induction over the segments
carries along (`braceTokens_append_ofSegments`, `key_append_ofSegments`).

A template without parameters is read twice, for tokens in braces and then for colon tokens,
and there are none of either.

Main result: `ofTemplate_written`.
-/
import ApiOutline.Proofs.TemplateDefaults

namespace ApiOutline.Template

open Text

/-! ### Segments -/

/-- The character marks off a part of a template. -/
def isMark (c : Char) : Bool := c = '{' || c = '}' || c = ':' || c = '/'

/-- A text without marks. -/
structure Plain where
  chars : List Char
  plain : chars.all (fun c => !isMark c) = true
deriving DecidableEq, Repr

/-- The name of a parameter. -/
structure TokenName extends Plain where
  nonempty : chars ≠ []
deriving DecidableEq, Repr

/-- The default of a parameter, which may have colons. -/
structure TokenDefault where
  chars : List Char
  nonempty : chars ≠ []
  plain : chars.all (fun c => c = ':' || !isMark c) = true
deriving DecidableEq, Repr

/-- A segment of a path. -/
inductive Segment where
  | text (t : Plain)
  | parameter (name : TokenName) (default : Option TokenDefault)
deriving DecidableEq, Repr

/-- The name of a parameter and its default. -/
def token (name : TokenName) (default : Option TokenDefault) : List Char :=
  tokenText name.chars (default.map TokenDefault.chars)

/-- A parameter in braces. -/
def inBraces (name : TokenName) (default : Option TokenDefault) : List Char :=
  '{' :: (token name default ++ ['}'])

/-- A parameter in braces, without its default. -/
def bare (name : TokenName) (_ : Option TokenDefault) : List Char := '{' :: (name.chars ++ ['}'])

/-- A parameter after a colon. -/
def afterColon (name : TokenName) (default : Option TokenDefault) : List Char :=
  ':' :: token name default

namespace Segment

/-- The segment, with its parameter in a style. -/
def written (style : TokenName → Option TokenDefault → List Char) : Segment → List Char
  | text t => t.chars
  | parameter name default => style name default

/-- The token of the segment. -/
def token? : Segment → Option (List Char)
  | text _ => none
  | parameter name default => some (token name default)

/-- The parameter that the segment declares. -/
def parameter? : Segment → Option Parameter
  | text _ => none
  | parameter name default => some
    { name := String.ofList name.chars
      location := "path"
      required := true
      type := "string"
      example? := default.map fun d => .text (String.ofList d.chars) }

end Segment

/-- The template with these segments. -/
def ofSegments (style : TokenName → Option TokenDefault → List Char) (segments : List Segment) :
    List Char :=
  join '/' (segments.map (Segment.written style))

/-! ### What the parts are free of -/

theorem Plain.not_mem {t : Plain} {c : Char} (hc : isMark c = true) : c ∉ t.chars := by
  intro h
  have hplain := List.all_eq_true.mp t.plain c h
  rw [hc] at hplain
  cases hplain

theorem TokenDefault.not_mem {d : TokenDefault} {c : Char} (hc : isMark c = true) (hne : c ≠ ':') :
    c ∉ d.chars := by
  intro h
  have hplain := List.all_eq_true.mp d.plain c h
  rw [hc, decide_eq_false hne] at hplain
  cases hplain

variable (name : TokenName) (default : Option TokenDefault)

theorem not_mem_token {c : Char} (hc : isMark c = true) (hne : c ≠ ':') :
    c ∉ token name default := by
  have hname : c ∉ name.chars := Plain.not_mem hc
  cases default with
  | none => exact hname
  | some d =>
    show c ∉ name.chars ++ ':' :: d.chars
    rw [List.mem_append, List.mem_cons, not_or, not_or]
    exact ⟨hname, hne, d.not_mem hc hne⟩

theorem token_ne_nil : token name default ≠ [] := tokenText_ne_nil name.nonempty _

/-- A token declares the parameter that it was written for. -/
theorem ofSlot_token :
    (slot? (token name default)).map Parameter.ofSlot =
      (Segment.parameter name default).parameter? := by
  have hcolon : ':' ∉ name.chars := Plain.not_mem rfl
  rw [slot?, token, cut_tokenText hcolon, if_neg name.nonempty, Option.map_some]
  cases default with
  | none =>
    rw [Option.map_none, tokenText, cut_of_not_mem hcolon]
    rfl
  | some d =>
    rw [Option.map_some, tokenText, cut_append hcolon, Parameter.ofSlot, if_neg d.nonempty]
    rfl

/-- The tokens of the segments declare their parameters. -/
theorem ofSlot_tokens (segments : List Segment) :
    ((segments.filterMap Segment.token?).filterMap slot?).map Parameter.ofSlot =
      segments.filterMap Segment.parameter? := by
  rw [List.filterMap_filterMap, List.map_filterMap]
  congr 1
  funext s
  cases s with
  | text t => rfl
  | parameter name default => exact ofSlot_token name default

/-! ### Tokens after colons -/

theorem tokenAfter?_written (s : Segment) :
    tokenAfter? ':' (s.written afterColon) = s.token? := by
  cases s with
  | text t =>
    have hcolon : ':' ∉ t.chars := Plain.not_mem rfl
    rw [Segment.written, tokenAfter?, cut_of_not_mem hcolon]
    rfl
  | parameter name default =>
    have hcut : cut ':' (':' :: token name default) = ([], token name default) := rfl
    rw [Segment.written, afterColon, tokenAfter?, hcut, if_neg (token_ne_nil name default)]
    rfl

theorem not_mem_written (s : Segment) {c : Char} (hc : isMark c = true) (hne : c ≠ ':') :
    c ∉ s.written afterColon := by
  cases s with
  | text t => exact Plain.not_mem hc
  | parameter name default =>
    exact List.not_mem_cons_of_ne_of_not_mem hne (not_mem_token name default hc hne)

/-- Between slashes stands one segment. -/
theorem colonTokens_ofSegments (segments : List Segment) :
    colonTokens (ofSegments afterColon segments) = segments.filterMap Segment.token? := by
  rcases segments with - | ⟨s, rest⟩
  · rfl
  · have hpieces : pieces '/' (ofSegments afterColon (s :: rest)) =
        (s :: rest).map (Segment.written afterColon) := by
      refine pieces_join (List.cons_ne_nil _ _) fun p hp => ?_
      obtain ⟨t, -, rfl⟩ := List.mem_map.mp hp
      exact not_mem_written t rfl (by decide)
    rw [colonTokens, hpieces, List.filterMap_map]
    congr 1
    funext t
    exact tokenAfter?_written t

/-! ### Tokens in braces -/

/-- A text without closing braces has no token in braces. -/
theorem braceTokens_of_not_mem {cs : List Char} (h : '}' ∉ cs) : braceTokens cs = [] := by
  rw [braceTokens, pieces_of_not_mem h]
  rfl

/-- The text has no braces. -/
def BraceFree (cs : List Char) : Prop := '{' ∉ cs ∧ '}' ∉ cs

theorem BraceFree.append {a b : List Char} (ha : BraceFree a) (hb : BraceFree b) :
    BraceFree (a ++ b) := by
  rw [BraceFree, List.mem_append, List.mem_append, not_or, not_or]
  exact ⟨⟨ha.1, hb.1⟩, ha.2, hb.2⟩

/-- The first token in braces, and those behind its closing brace. -/
theorem braceTokens_append {a t : List Char} (ha : BraceFree a) (ht : '}' ∉ t) (hne : t ≠ [])
    (rest : List Char) : braceTokens (a ++ '{' :: (t ++ '}' :: rest)) = t :: braceTokens rest := by
  have htext : a ++ '{' :: (t ++ '}' :: rest) = (a ++ '{' :: t) ++ '}' :: rest := by simp
  have hfree : '}' ∉ a ++ '{' :: t := by simp [ha.2, ht]
  have hfirst : tokenAfter? '{' (a ++ '{' :: t) = some t := by
    rw [tokenAfter?, cut_append ha.1, if_neg hne]
  rw [braceTokens, htext, pieces_append hfree,
    List.dropLast_cons_of_ne_nil (pieces_ne_nil '}' rest), List.filterMap_cons_some hfirst,
    braceTokens]

/-- A key, up to the first closing brace and behind it. -/
theorem key_append {p : List Char} (hp : '}' ∉ p) (rest : List Char) :
    key (p ++ '}' :: rest) = barePiece p ++ '}' :: key rest := by
  rw [key, pieces_append hp, key]
  rcases hrest : pieces '}' rest with - | ⟨q, qs⟩
  · exact absurd hrest (pieces_ne_nil '}' rest)
  rcases hbare : mapInit barePiece (q :: qs) with - | ⟨r, rs⟩
  · exact absurd hbare (mapInit_ne_nil barePiece (List.cons_ne_nil q qs))
  rw [mapInit, hbare, join]

/-- Behind a segment stands a slash, if it is not the last one. -/
theorem ofSegments_cons (s : Segment) (rest : List Segment) :
    ∃ slash, BraceFree slash ∧
      ∀ style, ofSegments style (s :: rest) =
        s.written style ++ (slash ++ ofSegments style rest) := by
  rcases rest with - | ⟨r, rest⟩
  · refine ⟨[], ⟨List.not_mem_nil, List.not_mem_nil⟩, fun style => ?_⟩
    show s.written style = s.written style ++ []
    rw [List.append_nil]
  · exact ⟨['/'], ⟨by decide, by decide⟩, fun style => rfl⟩

/-- The tokens in braces, behind a text that has none. -/
theorem braceTokens_append_ofSegments (segments : List Segment) {a : List Char} (ha : BraceFree a) :
    braceTokens (a ++ ofSegments inBraces segments) = segments.filterMap Segment.token? := by
  induction segments generalizing a with
  | nil =>
    show braceTokens (a ++ []) = []
    rw [List.append_nil, braceTokens_of_not_mem ha.2]
  | cons s rest ih =>
    obtain ⟨slash, hslash, hcons⟩ := ofSegments_cons s rest
    rw [hcons]
    cases s with
    | text t =>
      -- the text goes to what stands in front of the next token
      have ht : BraceFree t.chars := ⟨Plain.not_mem rfl, Plain.not_mem rfl⟩
      rw [Segment.written, ← List.append_assoc, ← List.append_assoc,
        ih ((ha.append ht).append hslash)]
      rfl
    | parameter name default =>
      have htext : a ++ (inBraces name default ++ (slash ++ ofSegments inBraces rest)) =
          a ++ '{' :: (token name default ++ '}' :: (slash ++ ofSegments inBraces rest)) := by
        simp [inBraces]
      have hclose : '}' ∉ token name default := not_mem_token name default rfl (by decide)
      rw [Segment.written, htext, braceTokens_append ha hclose (token_ne_nil name default),
        ih hslash]
      rfl

/-- The key of a template in braces, behind a text that has none. -/
theorem key_append_ofSegments (segments : List Segment) {a : List Char} (ha : BraceFree a) :
    key (a ++ ofSegments inBraces segments) = a ++ ofSegments bare segments := by
  induction segments generalizing a with
  | nil =>
    show key (a ++ []) = a ++ []
    rw [List.append_nil, key_of_braceTokens_eq_nil (braceTokens_of_not_mem ha.2)]
  | cons s rest ih =>
    obtain ⟨slash, hslash, hcons⟩ := ofSegments_cons s rest
    rw [hcons, hcons]
    cases s with
    | text t =>
      have ht : BraceFree t.chars := ⟨Plain.not_mem rfl, Plain.not_mem rfl⟩
      rw [Segment.written, Segment.written, ← List.append_assoc, ← List.append_assoc,
        ih ((ha.append ht).append hslash), List.append_assoc, List.append_assoc]
    | parameter name default =>
      have htext : a ++ (inBraces name default ++ (slash ++ ofSegments inBraces rest)) =
          (a ++ '{' :: token name default) ++ '}' :: (slash ++ ofSegments inBraces rest) := by
        simp [inBraces]
      have hclose : '}' ∉ a ++ '{' :: token name default := by
        simp [ha.2, not_mem_token name default (c := '}') rfl (by decide)]
      have hbare : barePiece (a ++ '{' :: token name default) = a ++ '{' :: name.chars :=
        barePiece_tokenText ha.1 name.nonempty (Plain.not_mem rfl) _
      rw [Segment.written, Segment.written, htext, key_append hclose, hbare, ih hslash]
      simp [bare]

/-! ### Both styles -/

/-- Without parameters the styles do not differ. -/
theorem ofSegments_of_no_token {segments : List Segment}
    (h : segments.filterMap Segment.token? = [])
    (style style' : TokenName → Option TokenDefault → List Char) :
    ofSegments style segments = ofSegments style' segments := by
  rw [ofSegments, ofSegments]
  congr 1
  refine List.map_congr_left fun s hs => ?_
  have htoken : s.token? = none := List.filterMap_eq_nil_iff.mp h s hs
  cases s with
  | text t => rfl
  | parameter name default => cases htoken

theorem not_mem_ofSegments (segments : List Segment) {c : Char} (hc : isMark c = true)
    (hcolon : c ≠ ':') (hslash : c ≠ '/') : c ∉ ofSegments afterColon segments := by
  intro h
  obtain ⟨p, hp, hmem⟩ | hsep := mem_join h
  · obtain ⟨s, -, rfl⟩ := List.mem_map.mp hp
    exact not_mem_written s hc hcolon hmem
  · exact hslash hsep

/-- The tokens of a template, in either style, are those of its segments. -/
theorem tokens_ofSegments (segments : List Segment) :
    tokens (ofSegments inBraces segments) = segments.filterMap Segment.token? ∧
      tokens (ofSegments afterColon segments) = segments.filterMap Segment.token? := by
  have hfree : BraceFree [] := ⟨List.not_mem_nil, List.not_mem_nil⟩
  have hbraces := braceTokens_append_ofSegments segments hfree
  rw [List.nil_append] at hbraces
  constructor
  · rw [tokens, hbraces]
    split
    · rename_i hnone
      rw [ofSegments_of_no_token hnone inBraces afterColon, colonTokens_ofSegments]
    · rfl
  · have hclose := not_mem_ofSegments segments (c := '}') rfl (by decide) (by decide)
    rw [tokens, if_pos (braceTokens_of_not_mem hclose), colonTokens_ofSegments]

/-- **Templates are read back.**  Whatever the segments are, the template in braces and the one with
colons declare just the parameters of the segments, in their order, and the key of the template in
braces is the same template without defaults. -/
theorem ofTemplate_written (segments : List Segment) :
    let declared := segments.filterMap Segment.parameter?
    Parameter.ofTemplate (String.ofList (ofSegments inBraces segments)) = declared ∧
      Parameter.ofTemplate (String.ofList (ofSegments afterColon segments)) = declared ∧
      keyOf (String.ofList (ofSegments inBraces segments)) =
        String.ofList (ofSegments bare segments) := by
  intro declared
  obtain ⟨hbraces, hcolons⟩ := tokens_ofSegments segments
  have hkey := key_append_ofSegments segments (a := []) ⟨List.not_mem_nil, List.not_mem_nil⟩
  refine ⟨?_, ?_, ?_⟩
  · rw [Parameter.ofTemplate, String.toList_ofList, slots, hbraces, ofSlot_tokens]
  · rw [Parameter.ofTemplate, String.toList_ofList, slots, hcolons, ofSlot_tokens]
  · rw [keyOf, String.toList_ofList, ← List.nil_append (ofSegments inBraces segments), hkey,
      List.nil_append]

/-- A default that has a colon itself, in both styles. -/
example :
    let time : Segment := .parameter ⟨⟨"time".toList, by decide⟩, by decide⟩
      (some ⟨"12:30".toList, by decide, by decide⟩)
    let segments : List Segment := [.text ⟨[], rfl⟩, .text ⟨"at".toList, by decide⟩, time]
    ofSegments inBraces segments = "/at/{time:12:30}".toList ∧
      ofSegments afterColon segments = "/at/:time:12:30".toList ∧
      ofSegments bare segments = "/at/{time}".toList := by
  decide

end ApiOutline.Template
