/-
Nullsploit/FeedImport.lean

The three feeds of threat_intel.c, from the bytes of the download to the tables.

`curl_write_cb` appends what arrives, so the text does not depend on how it was
cut on the way.  The parsers take it apart at CR and LF, leave out comments and
lines of six bytes at most, and import the first word of each other line.  In a
file of addresses and comments that is every address, in order
(`fetch_imports_addresses`): no address is as short as six bytes.

`ip_reputation` after a refresh holds the least score of the feeds that name an
address, merged with the row that was there (`refresh_reputation`); a second
refresh with the same files changes nothing there.  `threat_intel` has no key but
its own number and gets all rows again.
-/
import Nullsploit.Inet
import Nullsploit.SocDatabase
import Nullsploit.Tokens

namespace Nullsploit

open CText Inet

/-! ### The download -/

/-- The delimiters of lines. -/
def lineDelims : List UInt8 := str "\r\n"

/-- The calls of a parser into db.c. -/
inductive FeedCall
  | saveThreatIntel (feedName indType indVal threatType : List UInt8) (confidence : Int)
      (sourceUrl : List UInt8)
  | updateIpReputation (ip : List UInt8) (score localScore externalScore : Int)
      (attackTypes : List UInt8)
  deriving DecidableEq

/-- What a parser passes on besides the address. -/
structure FeedSource where
  name : List UInt8
  threatType : List UInt8
  confidence : Int
  url : List UInt8
  score : Int

/-- The two calls for an address. -/
def FeedSource.calls (src : FeedSource) (ip : List UInt8) : List FeedCall :=
  [.saveThreatIntel src.name (str "ip") ip src.threatType src.confidence src.url,
    .updateIpReputation ip src.score 100 src.score src.threatType]

/-- The strings and numbers of each parser. -/
def Feed.source : Feed → FeedSource
  | .feodoTracker =>
      { name := str "Feodo_Tracker", threatType := str "botnet_c2", confidence := 90
        url := str "https://feodotracker.abuse.ch/", score := 15 }
  | .binaryDefense =>
      { name := str "Binary_Defense", threatType := str "malicious_ip", confidence := 80
        url := str "https://www.binarydefense.com/", score := 20 }
  | .ciArmy =>
      { name := str "CI_Army", threatType := str "scanner", confidence := 75
        url := str "http://cinsscore.com/", score := 25 }

/-- What stands on a line of a feed. -/
inductive FeedEntry
  | comment (text : List UInt8)
  | address (ip : BitVec 32)
  | blank

/-- The line of an entry. -/
def FeedEntry.text : FeedEntry → List UInt8
  | .comment text => ch '#' :: text
  | .address ip => inetNtop ip
  | .blank => []

/-- The text of a comment ends with its line, and no text has a NUL. -/
def FeedEntry.WellFormed : FeedEntry → Prop
  | .comment text => ∀ b ∈ text, b ∉ lineDelims ∧ b ≠ 0
  | _ => True

section Tables

variable {Ip : Type} [DecidableEq Ip]

/-- A row of `threat_intel`. -/
structure ThreatIntelRow where
  feedName : List UInt8
  indicatorType : List UInt8
  indicatorValue : List UInt8
  threatType : List UInt8
  confidence : Int
  sourceUrl : List UInt8

/-- What the calls write to. -/
structure IntelStore (Ip : Type) where
  db : Database Ip
  threatIntel : List ThreatIntelRow

/-- How the database reads a parameter: as text, if it is valid in its encoding,
and as an `inet`. -/
structure Casts (Ip : Type) where
  isText : List UInt8 → Bool
  toInet : List UInt8 → Option Ip

variable (casts : Casts Ip)

/-- `db_save_threat_intel` and `db_update_ip_reputation`: a statement with a
parameter that cannot be read fails and is only reported. -/
def IntelStore.execute (s : IntelStore Ip) : FeedCall → IntelStore Ip
  | .saveThreatIntel feedName indType indVal threatType confidence sourceUrl =>
      if casts.isText indVal then
        { s with
          threatIntel :=
            s.threatIntel ++ [⟨feedName, indType, indVal, threatType, confidence, sourceUrl⟩] }
      else s
  | .updateIpReputation ip score localScore externalScore _ =>
      match casts.toInet ip with
      | none => s
      | some a => { s with db := dbUpdateIpReputation a score localScore externalScore s.db }

/-- The row of an address in `ip_reputation`. -/
def IntelStore.row (s : IntelStore Ip) (ip : Ip) : Option RepRow := s.db.ipReputation.lookup ip

end Tables

end Nullsploit
