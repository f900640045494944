import LearningPlatform.Verification.InlineFormat.Text
import LearningPlatform.Verification.MessageFormat.Fences

/-! # Links of a message

Every link that a message is shown with has a scheme that is allowed. -/

namespace LearningPlatform.InlineFormat

open Shared JsText Mentions

/-! ## Schemes -/

/-- The schemes that links may have, in either case. -/
def AllowedScheme (href : JsString) : Prop :=
  startsWithIgnoringCase "http:" href ∨ startsWithIgnoringCase "https:" href ∨
    startsWithIgnoringCase "mailto:" href

theorem startsWithIgnoringCase_of_isPrefix {front longer : String} {text : JsString}
    (hfront : ascii front <+: ascii longer) (h : startsWithIgnoringCase longer text) :
    startsWithIgnoringCase front text := by
  rw [startsWithIgnoringCase, List.isPrefixOf_iff_prefix] at h ⊢
  exact hfront.trans h

theorem allowedScheme_https (rest : JsString) : AllowedScheme (ascii "https://" ++ rest) :=
  .inr (.inl (startsWithIgnoringCase_of_isPrefix ⟨ascii "//", by decide⟩
    (Mobile.startsWith_https rest)))

namespace Web

theorem allowedScheme_of_normalizeLinkHref {value href : JsString}
    (h : normalizeLinkHref value = some href) : AllowedScheme href := by
  simp only [normalizeLinkHref] at h
  split_ifs at h with hempty hscheme hwww
  · cases h
    rw [Bool.or_eq_true, Bool.or_eq_true] at hscheme
    rcases hscheme with (hhttp | hhttps) | hmail
    · exact .inl (startsWithIgnoringCase_of_isPrefix ⟨ascii "//", by decide⟩ hhttp)
    · exact .inr (.inl (startsWithIgnoringCase_of_isPrefix ⟨ascii "//", by decide⟩ hhttps))
    · exact .inr (.inr hmail)
  · cases h
    exact allowedScheme_https _
  · obtain ⟨domain, -, hdomain⟩ := Option.bind_eq_some_iff.mp h
    split_ifs at hdomain
    cases hdomain
    exact allowedScheme_https _

end Web

namespace Mobile

/-- The text of an address starts with its protocol. -/
def SerializesProtocol (newURL : JsString → Option Url) : Prop :=
  ∀ text url, newURL text = some url → url.protocol <+: url.href

theorem startsWithIgnoringCase_of_lower {front : String} {text : JsString}
    (hlower : (ascii front).map asciiLower = ascii front) (h : ascii front <+: text) :
    startsWithIgnoringCase front text := by
  rw [startsWithIgnoringCase, List.isPrefixOf_iff_prefix, ← hlower]
  exact h.map asciiLower

theorem allowedScheme_of_normalizeMessageLink {newURL : JsString → Option Url}
    (hnewURL : SerializesProtocol newURL) {fuel : ℕ} {value href : JsString}
    (h : normalizeMessageLink newURL fuel value = some (some href)) : AllowedScheme href := by
  induction fuel generalizing value with
  | zero => cases h
  | succ fuel ih =>
    rw [normalizeMessageLink] at h
    split_ifs at h with hempty hmail hscheme hwww
    · simp at h
    · obtain rfl := Option.some.inj (Option.some.inj h)
      simp only [isMailAddress, Bool.and_eq_true] at hmail
      exact .inr (.inr hmail.1.1.1.1)
    · obtain ⟨url, hurl, hprotocol⟩ := Option.bind_eq_some_iff.mp (Option.some.inj h)
      split_ifs at hprotocol with hallowed
      cases hprotocol
      have hstarts := hnewURL _ _ hurl
      rcases hallowed with hhttps | hhttp
      · rw [hhttps] at hstarts
        exact .inr (.inl (startsWithIgnoringCase_of_lower (by decide) hstarts))
      · rw [hhttp] at hstarts
        exact .inl (startsWithIgnoringCase_of_lower (by decide) hstarts)
    · exact ih h
    · cases hdomain : bareDomain (trim value) with
      | none => simp [hdomain] at h
      | some domain =>
        simp only [hdomain] at h
        split_ifs at h
        · exact ih h
        · simp at h

end Mobile

/-! ## Links of nodes -/

mutual

def InlineNode.hrefs : InlineNode → List JsString
  | .text _ | .mention _ | .code _ => []
  | .styled _ children | .unlinked children => hrefsAll children
  | .link href children => href :: hrefsAll children

def hrefsAll : List InlineNode → List JsString
  | [] => []
  | node :: nodes => node.hrefs ++ hrefsAll nodes

end

def Safe (nodes : List InlineNode) : Prop :=
  ∀ node ∈ nodes, ∀ href ∈ node.hrefs, AllowedScheme href

variable {nodes : List InlineNode}

theorem safe_iff : Safe nodes ↔ ∀ href ∈ hrefsAll nodes, AllowedScheme href := by
  induction nodes with
  | nil => simp [Safe, hrefsAll]
  | cons node nodes ih =>
    simp only [Safe, List.forall_mem_cons] at ih ⊢
    rw [hrefsAll, ih, List.forall_mem_append]

theorem safe_of_hrefs_eq_nil (h : ∀ node ∈ nodes, node.hrefs = []) : Safe nodes := by
  intro node hnode href hhref
  cases (h node hnode) ▸ hhref

theorem collect_cons_eq_some {α : Type} {f : α → Option (List InlineNode)} {part : α}
    {parts : List α} (h : collect f (part :: parts) = some nodes) :
    ∃ first rest, f part = some first ∧ collect f parts = some rest ∧ nodes = first ++ rest := by
  cases hfirst : f part with
  | none => simp [collect, List.mapM_cons, hfirst] at h
  | some first =>
    cases hrest : collect f parts with
    | none =>
      rw [collect, Option.map_eq_none_iff] at hrest
      simp [collect, List.mapM_cons, hfirst, hrest] at h
    | some rest =>
      rw [collect_cons hfirst hrest] at h
      exact ⟨first, rest, rfl, rfl, (Option.some.inj h).symm⟩

theorem safe_collect {α : Type} {f : α → Option (List InlineNode)} {parts : List α}
    (h : ∀ part ∈ parts, ∀ nodes, f part = some nodes → Safe nodes)
    (hnodes : collect f parts = some nodes) : Safe nodes := by
  induction parts generalizing nodes with
  | nil =>
    obtain rfl : nodes = [] := (Option.some.inj hnodes).symm
    exact fun node hnode => absurd hnode List.not_mem_nil
  | cons part parts ih =>
    obtain ⟨first, rest, hfirst, hrest, rfl⟩ := collect_cons_eq_some hnodes
    intro node hnode
    rcases List.mem_append.mp hnode with hnode | hnode
    · exact h part List.mem_cons_self first hfirst node hnode
    · exact ih (fun other hother => h other (List.mem_cons_of_mem _ hother)) hrest node hnode

/-- A renderer that accepts only allowed targets, and makes links in no other way. -/
structure SafeRules (rules : InlineRules) : Prop where
  normalize : ∀ target href, rules.normalize target = some (some href) → AllowedScheme href
  plain : ∀ text nodes, rules.plain text = some nodes → Safe nodes
  leaf : ∀ text nodes, rules.leaf text = some nodes → Safe nodes

section Levels

variable {rules : InlineRules} {nested : JsString → Option (List InlineNode)}
  {nodes : List InlineNode}

theorem hrefs_linkNode (hrules : SafeRules rules) {target : JsString} {children : List InlineNode}
    (hchildren : Safe children) {node : InlineNode}
    (h : linkNode rules target children = some node) : ∀ href ∈ node.hrefs, AllowedScheme href := by
  obtain ⟨href, hhref, rfl⟩ := Option.map_eq_some_iff.mp h
  cases href with
  | none => exact safe_iff.mp hchildren
  | some href =>
    exact List.forall_mem_cons.mpr ⟨hrules.normalize _ _ hhref, safe_iff.mp hchildren⟩

theorem safe_text (text : JsString) : Safe [.text text] :=
  safe_of_hrefs_eq_nil (List.forall_mem_singleton.mpr rfl)

variable (hrules : SafeRules rules)
  (hnested : ∀ value nodes, nested value = some nodes → Safe nodes)

include hrules hnested

theorem safe_appendFormattedText {chunk : JsString}
    (h : appendFormattedText rules nested chunk = some nodes) : Safe nodes := by
  obtain ⟨spans, -, hnodes⟩ := Option.bind_eq_some_iff.mp h
  refine safe_collect (fun piece _ nodes hpiece => ?_) hnodes
  unfold formatPiece at hpiece
  cases hclassify : classify (piece.text chunk) with
  | none =>
    rw [hclassify] at hpiece
    exact hrules.plain _ _ hpiece
  | some found =>
    rw [hclassify] at hpiece
    obtain ⟨children, hchildren, rfl⟩ := Option.map_eq_some_iff.mp hpiece
    have hsafe := safe_iff.mp (hnested _ _ hchildren)
    exact List.forall_mem_singleton.mpr hsafe

theorem safe_linkNodes {link : InlineLink}
    (h : linkNodes rules nested link = some nodes) : Safe nodes := by
  cases link with
  | markdown label target =>
    obtain ⟨children, hchildren, hlink⟩ := Option.bind_eq_some_iff.mp h
    obtain ⟨node, hnode, hnodes⟩ := Option.bind_eq_some_iff.mp hlink
    cases hnodes
    exact List.forall_mem_singleton.mpr (hrefs_linkNode hrules (hnested _ _ hchildren) hnode)
  | bare address =>
    obtain ⟨node, hnode, hnodes⟩ := Option.bind_eq_some_iff.mp h
    cases hnodes
    have hlink := hrefs_linkNode hrules (safe_text _) hnode
    split_ifs
    · exact List.forall_mem_singleton.mpr hlink
    · exact List.forall_mem_cons.mpr ⟨hlink, safe_text _⟩

theorem safe_appendTextWithLinks {chunk : JsString}
    (h : appendTextWithLinks rules nested chunk = some nodes) : Safe nodes := by
  obtain ⟨spans, -, hnodes⟩ := Option.bind_eq_some_iff.mp h
  refine safe_collect (fun piece _ nodes hpiece => ?_) hnodes
  cases hvalue : piece.value with
  | none =>
    rw [hvalue] at hpiece
    exact safe_appendFormattedText hrules hnested hpiece
  | some link =>
    rw [hvalue] at hpiece
    exact safe_linkNodes hrules hnested hpiece

theorem safe_formatText {text : JsString}
    (h : formatText rules nested text = some nodes) : Safe nodes := by
  obtain ⟨appended, happended, hnodes⟩ := Option.bind_eq_some_iff.mp h
  split_ifs at hnodes
  · exact hrules.plain _ _ hnodes
  · cases hnodes
    obtain ⟨spans, -, hcollect⟩ := Option.bind_eq_some_iff.mp happended
    refine safe_collect (fun piece _ nodes hpiece => ?_) hcollect
    cases hvalue : piece.value with
    | none =>
      rw [hvalue] at hpiece
      exact safe_appendTextWithLinks hrules hnested hpiece
    | some code =>
      cases hvalue ▸ hpiece
      exact safe_of_hrefs_eq_nil (List.forall_mem_singleton.mpr rfl)

end Levels

theorem safe_formatInline {rules : InlineRules} (hrules : SafeRules rules) {fuel : ℕ}
    {text : JsString} {nodes : List InlineNode} (h : formatInline rules fuel text = some nodes) :
    Safe nodes := by
  induction fuel generalizing text nodes with
  | zero => cases h
  | succ fuel ih =>
    refine safe_formatText hrules (fun value nodes hvalue => ?_) h
    obtain ⟨nested, -, hnodes⟩ := Option.bind_eq_some_iff.mp hvalue
    split_ifs at hnodes
    · exact ih hnodes
    · exact hrules.leaf _ _ hnodes

/-- A message is shown with enough fuel, and its links are allowed. -/
theorem formatMessage_safe {rules : InlineRules} (hlawful : Lawful rules) (hrules : SafeRules rules)
    {parse : ℕ → JsString → Option (List MessageFormat.MessageBlock)} {body : JsString}
    {blocks : List MessageFormat.MessageBlock}
    (hparse : ∀ fuel, body.length < fuel → parse fuel body = some blocks) :
    ∃ limit, ∀ fuel, limit ≤ fuel → ∃ nodes, formatMessage rules parse fuel body = some nodes ∧
      ∀ href ∈ hrefsAll nodes, AllowedScheme href := by
  refine ⟨body.length + 1 + ((blocks.flatMap blockTexts).map List.length).sum, fun fuel hfuel => ?_⟩
  unfold formatMessage
  split_ifs
  · exact ⟨[], rfl, by simp [hrefsAll]⟩
  · rw [hparse fuel (by omega), Option.bind_some]
    have hrenders : ∀ text ∈ blocks.flatMap blockTexts, Renders text
        (formatInline rules fuel text) (keptText rules fuel text) (Misread rules fuel text) := by
      intro text htext
      have hlength : text.length ≤ ((blocks.flatMap blockTexts).map List.length).sum :=
        List.le_sum_of_mem (List.mem_map_of_mem htext)
      exact renders_formatInline hlawful (by omega)
    obtain ⟨-, nodes, hnodes, -⟩ := renders_collect hrenders
    refine ⟨nodes, hnodes, safe_iff.mp ?_⟩
    exact safe_collect (fun text _ nodes htext => safe_formatInline hrules htext) hnodes

namespace Web

theorem safeRules (case : CaseRules) (patterns : List Mentions.Web.MentionPattern) :
    SafeRules (rules case patterns) := by
  refine ⟨fun target href h => ?_, fun text nodes h => ?_, fun text nodes h => ?_⟩
  · exact allowedScheme_of_normalizeLinkHref (Option.some.inj h)
  · obtain ⟨rendered, -, rfl⟩ := Option.map_eq_some_iff.mp h
    refine safe_of_hrefs_eq_nil fun node hnode => ?_
    obtain ⟨⟨kind, text⟩, -, rfl⟩ := List.mem_map.mp hnode
    cases kind <;> rfl
  · cases h
    exact safe_text text

end Web

namespace Mobile

theorem safe_renderMentions (case : CaseRules) (users : List Mentions.User) {text : JsString}
    {nodes : List InlineNode} (h : renderMentions case users text = some nodes) : Safe nodes := by
  obtain ⟨segments, -, hnodes⟩ := Option.bind_eq_some_iff.mp h
  refine safe_collect (fun segment _ nodes hsegment => safe_of_hrefs_eq_nil ?_) hnodes
  unfold renderSegment at hsegment
  split_ifs at hsegment
  · cases hsegment
    exact List.forall_mem_singleton.mpr rfl
  · obtain ⟨spans, -, rfl⟩ := Option.map_eq_some_iff.mp hsegment
    intro node hnode
    obtain ⟨piece, -, rfl⟩ := List.mem_map.mp hnode
    unfold partNode
    split <;> rfl

theorem safeRules (case : CaseRules) {newURL : JsString → Option Url}
    (hnewURL : SerializesProtocol newURL) (users : List Mentions.User) :
    SafeRules (rules case newURL users) :=
  ⟨fun _ _ h => allowedScheme_of_normalizeMessageLink hnewURL h,
    fun _ _ h => safe_renderMentions case users h, fun _ _ h => safe_renderMentions case users h⟩

end Mobile

/-- Both apps show every message, with links to allowed schemes only, and the normalization of
targets returns. -/
theorem message_links_allowed (case : CaseRules) (names : List JsString) (includeChannel : Bool)
    (newURL : JsString → Option Mobile.Url) (hnewURL : Mobile.SerializesProtocol newURL)
    (users : List Mentions.User) (body : JsString) :
    let web := Web.rules case (Mentions.Web.buildMentionPatterns case names includeChannel)
    let mobile := Mobile.rules case newURL users
    (∃ limit, ∀ fuel, limit ≤ fuel → ∃ nodes,
      formatMessage web MessageFormat.Web.parseMessageBlocks fuel body = some nodes ∧
        ∀ href ∈ hrefsAll nodes, AllowedScheme href) ∧
    (∃ limit, ∀ fuel, limit ≤ fuel → ∃ nodes,
      formatMessage mobile MessageFormat.Mobile.parseMessageBlocks fuel body = some nodes ∧
        ∀ href ∈ hrefsAll nodes, AllowedScheme href) ∧
    ∀ value, ∃ href, Mobile.normalizeMessageLink newURL 2 value = some href := by
  intro web mobile
  have hparse : ∀ fuel, body.length < fuel → MessageFormat.Web.parseMessageBlocks fuel body =
      some (MessageFormat.finishBlocks body
        (MessageFormat.segmentBlocks [] (MessageFormat.segments body))) :=
    fun fuel hfuel => MessageFormat.parseMessageBlocks_eq hfuel
  exact ⟨formatMessage_safe (Web.lawful case names includeChannel) (Web.safeRules case _) hparse,
    formatMessage_safe (Mobile.lawful case newURL users) (Mobile.safeRules case hnewURL users)
      hparse,
    Mobile.exists_normalizeMessageLink newURL⟩

namespace LinksExample

/-- An address is written with a slash behind its host. -/
def plainURL (text : JsString) : Option Mobile.Url :=
  if ascii "https://" <+: text then
    some ⟨ascii "https:", if (text.drop 8).contains 47 then text else text ++ ascii "/"⟩
  else none

theorem serializesProtocol_plainURL : Mobile.SerializesProtocol plainURL := by
  intro text url h
  unfold plainURL at h
  by_cases hscheme : ascii "https://" <+: text
  · have hprotocol : ascii "https:" <+: text :=
      List.IsPrefix.trans ⟨ascii "//", by decide⟩ hscheme
    cases (if_pos hscheme) ▸ h
    dsimp only
    split_ifs
    · exact hprotocol
    · exact hprotocol.trans (List.prefix_append _ _)
  · cases (if_neg hscheme) ▸ h

/-- A domain without a scheme gets one, and a script gets no link. -/
theorem script_not_linked :
    (∃ limit, ∀ fuel, limit ≤ fuel → ∃ nodes,
      formatMessage (Mobile.rules asciiRules plainURL [])
          MessageFormat.Mobile.parseMessageBlocks fuel
          (ascii "[a](example.org) [b](javascript:alert)") = some nodes ∧
        ∀ href ∈ hrefsAll nodes, AllowedScheme href) ∧
      (formatMessage (Mobile.rules asciiRules plainURL [])
          MessageFormat.Mobile.parseMessageBlocks 50
          (ascii "[a](example.org) [b](javascript:alert)")).map hrefsAll =
        some [ascii "https://example.org/"] :=
  ⟨(message_links_allowed asciiRules [] false plainURL serializesProtocol_plainURL []
    (ascii "[a](example.org) [b](javascript:alert)")).2.1, by decide +kernel⟩

end LinksExample

end LearningPlatform.InlineFormat
