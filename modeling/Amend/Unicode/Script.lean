import Amend.Unicode.Table

/-!
# Scripts

The script of a character and its script extensions, as assigned by Unicode 16.0. A script is
the index of its names in `Script.names`.
-/

set_option autoImplicit false

namespace Amend.Unicode.Script

/-- The folded names of every script. -/
def names : Array (List String) :=
  #[["adlm", "adlam"], ["ahom"], ["hluw", "anatolianhieroglyphs"], ["arab", "arabic"],
    ["armn", "armenian"], ["avst", "avestan"], ["bali", "balinese"], ["bamu", "bamum"],
    ["bass", "bassavah"], ["batk", "batak"], ["beng", "bengali"], ["bhks", "bhaiksuki"],
    ["bopo", "bopomofo"], ["brah", "brahmi"], ["brai", "braille"], ["bugi", "buginese"],
    ["buhd", "buhid"], ["cans", "canadianaboriginal"], ["cari", "carian"],
    ["aghb", "caucasianalbanian"], ["cakm", "chakma"], ["cham"], ["cher", "cherokee"],
    ["chrs", "chorasmian"], ["zyyy", "common"], ["copt", "coptic", "qaac"], ["xsux", "cuneiform"],
    ["cprt", "cypriot"], ["cpmn", "cyprominoan"], ["cyrl", "cyrillic"], ["dsrt", "deseret"],
    ["deva", "devanagari"], ["diak", "divesakuru"], ["dogr", "dogra"], ["dupl", "duployan"],
    ["egyp", "egyptianhieroglyphs"], ["elba", "elbasan"], ["elym", "elymaic"],
    ["ethi", "ethiopic"], ["gara", "garay"], ["geor", "georgian"], ["glag", "glagolitic"],
    ["goth", "gothic"], ["gran", "grantha"], ["grek", "greek"], ["gujr", "gujarati"],
    ["gong", "gunjalagondi"], ["guru", "gurmukhi"], ["gukh", "gurungkhema"], ["hani", "han"],
    ["hang", "hangul"], ["rohg", "hanifirohingya"], ["hano", "hanunoo"], ["hatr", "hatran"],
    ["hebr", "hebrew"], ["hira", "hiragana"], ["armi", "imperialaramaic"],
    ["zinh", "inherited", "qaai"], ["phli", "inscriptionalpahlavi"],
    ["prti", "inscriptionalparthian"], ["java", "javanese"], ["kthi", "kaithi"],
    ["knda", "kannada"], ["kana", "katakana"], ["kawi"], ["kali", "kayahli"],
    ["khar", "kharoshthi"], ["kits", "khitansmallscript"], ["khmr", "khmer"], ["khoj", "khojki"],
    ["sind", "khudawadi"], ["krai", "kiratrai"], ["laoo", "lao"], ["latn", "latin"],
    ["lepc", "lepcha"], ["limb", "limbu"], ["lina", "lineara"], ["linb", "linearb"], ["lisu"],
    ["lyci", "lycian"], ["lydi", "lydian"], ["mahj", "mahajani"], ["maka", "makasar"],
    ["mlym", "malayalam"], ["mand", "mandaic"], ["mani", "manichaean"], ["marc", "marchen"],
    ["gonm", "masaramgondi"], ["medf", "medefaidrin"], ["mtei", "meeteimayek"],
    ["mend", "mendekikakui"], ["merc", "meroiticcursive"], ["mero", "meroitichieroglyphs"],
    ["plrd", "miao"], ["modi"], ["mong", "mongolian"], ["mroo", "mro"], ["mult", "multani"],
    ["mymr", "myanmar"], ["nbat", "nabataean"], ["nagm", "nagmundari"], ["nand", "nandinagari"],
    ["talu", "newtailue"], ["newa"], ["nkoo", "nko"], ["nshu", "nushu"],
    ["hmnp", "nyiakengpuachuehmong"], ["ogam", "ogham"], ["olck", "olchiki"], ["onao", "olonal"],
    ["hung", "oldhungarian"], ["ital", "olditalic"], ["narb", "oldnortharabian"],
    ["perm", "oldpermic"], ["xpeo", "oldpersian"], ["sogo", "oldsogdian"],
    ["sarb", "oldsoutharabian"], ["orkh", "oldturkic"], ["ougr", "olduyghur"], ["orya", "oriya"],
    ["osge", "osage"], ["osma", "osmanya"], ["hmng", "pahawhhmong"], ["palm", "palmyrene"],
    ["pauc", "paucinhau"], ["phag", "phagspa"], ["phnx", "phoenician"], ["phlp", "psalterpahlavi"],
    ["rjng", "rejang"], ["runr", "runic"], ["samr", "samaritan"], ["saur", "saurashtra"],
    ["shrd", "sharada"], ["shaw", "shavian"], ["sidd", "siddham"], ["sgnw", "signwriting"],
    ["sinh", "sinhala"], ["sogd", "sogdian"], ["sora", "sorasompeng"], ["soyo", "soyombo"],
    ["sund", "sundanese"], ["sunu", "sunuwar"], ["sylo", "sylotinagri"], ["syrc", "syriac"],
    ["tglg", "tagalog"], ["tagb", "tagbanwa"], ["tale", "taile"], ["lana", "taitham"],
    ["tavt", "taiviet"], ["takr", "takri"], ["taml", "tamil"], ["tnsa", "tangsa"],
    ["tang", "tangut"], ["telu", "telugu"], ["thaa", "thaana"], ["thai"], ["tibt", "tibetan"],
    ["tfng", "tifinagh"], ["tirh", "tirhuta"], ["todr", "todhri"], ["toto"],
    ["tutg", "tulutigalari"], ["ugar", "ugaritic"], ["vaii", "vai"], ["vith", "vithkuqi"],
    ["wcho", "wancho"], ["wara", "warangciti"], ["yezi", "yezidi"], ["yiii", "yi"],
    ["zanb", "zanabazarsquare"]]

/-- The script of every character that has one. -/
def table : Table := .ofRuns
  (String.join [
    "AcAYAZcJAFYAZcJAbOYAAcJAOYAAcJAEYAWcJAAYA+cJAAYAoAcJAbGYAEcJAEYABMATYAdPbZADbMAAYACbMCDbMAAYAAbM",
    "EAbMAAYAAbMAAYACbMBAbMBTbMBb+bMANZAPbMAeE9ABbZAfI9BbFECbRECCEBbWbWI6bWEFbWLEDAAYAFDAAYANDAAYACDA",
    "AYA-DAAYAJDAKbZAZDAAbZAdLDAAYAbBDANePBb7ePCCePAbPDAbRe6Ob6dICCdIAbNeCCOeCB7cUCAcUBKePF+DBBDFcKDA",
    "AYA8DAcQ-ADbZAO-ABYAZ-ADKBHKCBKCVKBGKBAKDDKCIKCBKCDKIAKEBKBEKCYKCCbPBFbPEBbPCVbPBGbPBBbPBBbPBBbP",
    "CAbPBEbPEBbPCCbPDAbPHDbPBAbPHQbPKCbNBIbNBCbNBVbNBGbNBBbNBEbNCJbNBCbNBCbNCAbNPDbNCLbNHGbNBCdXBHdX",
    "CBdXCVdXBGdXBBdXBEdXCIdXCBdXCCdXHCdXEBdXBEdXCRdXKBeWBFeWDCeWBDeWDBeWBAeWBBeWDBeWDCeWDLeWEEeWDCeW",
    "BDeWCAeWGAeWOUeWFMeZBCeZBWeZBPeZCIeZBCeZBDeZHBeZBCeZCAeZCDeZCJeZHIeZAMb+BCb+BWb+BJb+BEb+CIb+BCb+",
    "BDb+HBb+GBb+BDb+CJb+BCb+MMcTBCcTBbScTBCcTBFcTEPcTCZcTBCeIBReIDXeIBIeIBAeICGeIDAeIEFeIBAeIBHeIGJe",
    "ICCeIMbZe7EAYA7e7bFBcIBAcIBEcIBXcIBAcIBWcICEcIBAcIBGcIBJcICDcIbAcHe8BbDe8EbGe8BbDe8BOe8BGe8ADYAB",
    "e8bFe-dCAbFbIBAbIFAbICbKbIAAYADbIAh-bSAcIbGBDbGCGbGBAbGBDbGCbIbGBDbGCbAbGBDbGCGbGBAbGBDbGCObGBbY",
    "bGBDbGCcCbGC-bGDZbGGcVWCFWCt-RA8dLDcKeBACYAKeBHVeQJAeQAUbUABYJTQMMeRBCeRBBeRMc9cECJcEGJcEGBc-ABY",
    "AAc-AAYATc-GcYc-HbKc-FcFRK+cLBLcLELcLEAcLDLcLA9eSCEeSLbLdGEZdGGKdGDBdGA-cEA7PCBPAb+eTB8eTCKeTGJe",
    "TGNeTC+bZbRcMGBbRGAb-eMAbTJIDJAbXcKDOcKDCcKAbPdMAK9FbKbICCbIAHeMICbZAAYAMbZAAYAGbZADYAAbZAFYAAbZ",
    "ACYABbZAAYFbFcJAEbMAA9AbQcJAEbMADcJAEbMAMcJAA9AcFcJAAbMAb-bZAh-cJAVbMCFbMCbFbMCFbMCHbMBAbMBAbMBA",
    "bMB+bMCbUbMBObMBNbMCFbMBSbMCCbMBIbMBLYABbZAcWYBKYAAcJCKYAAcJAOYBMcJDbAYPbAbZPbFYAAbMACYABcJAFYAA",
    "cJA6YAAcJAQYAbIcJACYEuZYWKYV2-YAh-OAtTYC-YBdIYAc-bJA-cJAdTZFGZAbFbIBAbIFAbICbXe9HBe9OAe9AWbGJGbG",
    "BGbGBGbGBGbGBGbGBGbGBGbGBGbGB-9Ac9YbCZbRBcYbRMgVbR6UYAAbRAAYAAbRAYYAIbRADbZABbSAHYADbRADYBcVbXCB",
    "bZABYACbXAAYAcZb-ABYACb-FbKMBc9bSBPYA-MAbFYJAYAPb-A+bSBb-YA+bSAcQYAbOb-AAYAcXb-AfHYAgn-bRAb-YAup",
    "-bRAbeMfIDbWfIJbPcOAjLfDUc-9AcXHIbBYAdFcJACYAcCcJCBcJBAcJBHcJVNcJAbMeODJYGbXd9IcFeDILeDG--AbNcBA",
    "AYAAcBAbDeALAeAA8bSDcNb8BAYAJb8EBb8A+dCBbWVJNVCJVCDVA-dCAcCeUYEeUAWcZKFbGCFbGCFbGJGbGBGbGBbKcJAA",
    "YAIcJAAbMADcJABYEcPWAbNcZCJcZGk3DbSMWbSEbQbSiiElNbRCdJbRbGGcJMEEFZbWBEbWBAbWBBbWBBbWBJbWAdSDQlKD",
    "ABYAcPDCbVDHADbAPDAPbZAJYGNbZAB9AbCYBSYBDYEEDBeGDCAYB-YAZcJAFYAZcJAKYAJb-AAYAbMb-ABYA+bSDFbSCFbS",
    "CFbSCCbSDGYBGYKEYCLcNBZcNBScNBBcNBOcNCNcNbCd6cNFCYEbMYDIYAcObMBMYDAbMbPbMYAAbZeC8cPDbQSPAbZA6YEb",
    "DdPJCdPA6bKFbKdRF9fCBAfCAbDdSENdSbKcP+AbPeFA9dZCJdZGbDdYEbDdYEbHbEIbTTLATAKfEBOfEBGfEBBfEBKfEBOf",
    "EBGfEBBfEDbTe-MjWcMJVcMKHcMYFcJBbJcJBIcJcFF7CA7BbL7BB7DA7CA7AVbYBIbYA-d7A+dDIIdDbQSbVBBbVFEbVA7d",
    "+DAd+AZcQFAcQcA-c8AXc7ETc7CbNc7ADcCBBcCFHcCBCcCB8cCCCcCEJcCHIcCH-dUA-dQbAbGcVELcVJbVFDGFAVb7CHb7",
    "ASb6FHb6ARd-HDd-MGd-cQcIdVbXbSdONbSdOHFdOAbHbTIJbTGbFbHD8bHIBbHgQ+DBbJfHBCfHCBfHQCDbXDDAbHdTIbJe",
    "JWZdWbG7XUWbFJcNNEbDNJANAcCb9KAb9CYeKHJeKGbUUBRUIbGcRJc-eEBTeILRcFBbOcFb+GdBBAdBBDdBBOdBBKdBGb6c",
    "GFJcGGDbLBHbLCBbLCVbLBGbLBBbLBEbLBAbZAIbLCBbLCCbLCAbLGAbLFGbLCGbLDEbLLJfBBAfBCAfBBbFfBBJfBBAfBCA",
    "fBBDfBBJfBBBfBIBfB9c7dHBEdH+cHe+IJe+fGbVeGCbFeGbCcEc+LJc+GMc-TbZeVGJeVGTdC86BCOBEWBfZb7bBdEcSfGM",
    "AfGAGbACAbACHbABBbAB9bABBbACLbAJJbAcGHdFCbNdFCKdF7cHfJIcSeLNPRAbYd8HJ-fWbBeNOJeNGILBbMLBNLK8LD-c",
    "WCVcWBNcWcJGcXBBcXBbLcXDAcXBBcXBIcXIJcXGFbOBBbOBbEbOBBbOBFbOHJbOjWYcSHQcABbIcAD8cAcVAcOPbReWNAeW",
    "A2Z6dGdO6BE6LgD6csMdC8NbcVbDKd26bDFsGCgvZbZbQbwGrYHH+dABJdAEBdAAcOeXBJeXG9ICFIKcFd6KJd6BGd6BUd6F",
    "Sd6nQbZcHgGc6cYdFcKc9EbYc9HQc9cAAeYAAdJABbRAAcDLBbROf5XeYIx-eYAoVcDbJAcDAIeYixHDb-BGb-BBb-BAb-Ai",
    "+bXACb-PAbX9CbXCAb-ODb-ImLdJciEdKbCFMbCDIbCHJbCCDbCADYd08hZYGnTYcMbNbZCWbZJdTYb8hVYKbGYCb9YACbZA",
    "QYAHbZABYAGbZA9YADbZAb8YVcFbMd6TYMTYMcWYJYYeHcUYBcGYBBYCAYCBYCDYBLYBAYBGYBcAYBDYCHYBGYB7YBDYBEYB",
    "AYDGYBkTYCjDYCbRYAuLeHPEeHBOeHbcQ+cJGFcJgVGbJBQbJCGbJBBbJBEbJFb99bBA9dQbMdKDNdKCJdKEBdKkA+fARbZf",
    "FFAfFoQbJdEgWbKdNEAdNpAGbGBDbGBBbGBObGBgEc6CPc6bJcLAEJAEBAyRcDYcMb8YgCDDB6DBBDBADCADBJDBDDBADBAD",
    "GADEADBADBADBCDBBDBADCADBADBADBADBADBBDBADCDDBGDBDDBDDBADBJDBQDFCDBEDBQDbUBDiObLYEdDYMOYCOYBOYBb",
    "EYKfNYbYZYAAbXABYNbLYEIYHBYOFYe64XYEQYDMYDdWYEc+YGLYEAYPLYEbXYIJYGbHYI9YCLYEBYb+kTYMNYCMYDJYFbXY",
    "HOYCKYGIYHeSYBdFYbaGbjw-bRbAebZbRGg9bRCfuBbROhjQbRPtNbRcnCq9bRbpCe0KbRFec-bRvxcRAY+c-YeAhPbZ"])

/-- The sets of scripts that are the extensions of some character. -/
def extensionSets : Array (List Nat) :=
  #[[5, 18, 25, 34, 36, 40, 41, 42, 44, 46, 49, 73, 80, 81, 113, 133],
    [10, 29, 31, 73, 78, 155, 160], [12, 73], [73, 78], [73, 155],
    [22, 25, 29, 44, 73, 113, 141, 146], [22, 29, 44, 73, 120, 141, 146, 159], [22, 29, 73, 157],
    [41, 73, 141, 143, 155], [19, 22, 25, 29, 42, 44, 73, 120, 143, 157, 159],
    [25, 36, 41, 42, 63, 73], [29, 44, 73, 113, 157], [25, 34, 54, 73, 113, 143, 146, 157, 159],
    [4, 29, 34, 42, 44, 54, 73, 113, 143, 146, 157], [73, 157], [34, 73, 143], [22, 29, 73, 120],
    [22, 73, 146], [73, 141], [38, 73], [29, 73, 159], [44, 73, 113, 159],
    [22, 34, 63, 73, 143, 157], [22, 34, 73, 143], [73, 143], [73, 141, 143], [22, 73, 143],
    [19, 22, 42, 73, 141, 143, 155], [44], [73, 120], [19, 73, 159], [73], [25, 44], [29, 113],
    [29, 41], [29, 73], [4, 40, 41], [3, 39, 51, 104, 143, 154, 167], [3, 143, 154],
    [0, 3, 39, 51, 104, 143, 154, 167], [0, 3, 51, 84, 85, 118, 127, 137, 143], [3, 143],
    [3, 154, 167], [3, 51], [10, 31, 43, 45, 47, 62, 73, 83, 101, 103, 119, 132, 150, 153, 158],
    [10, 31, 43, 45, 47, 62, 73, 83, 103, 119, 150, 153, 158],
    [10, 31, 33, 43, 45, 46, 47, 62, 70, 81, 83, 87, 101, 109, 119, 136, 142, 149, 150, 153, 158],
    [10, 31, 33, 43, 45, 46, 47, 48, 62, 70, 75, 81, 83, 87, 101, 109, 119, 136, 142, 149, 150, 153, 158],
    [31, 33, 61, 81], [10, 20, 142], [47, 97], [45, 69], [43, 150], [62, 101, 161], [20, 98, 146],
    [40, 41, 73], [129], [16, 52, 144, 145], [95, 125], [10, 31, 43, 62], [31], [31, 43, 62],
    [10, 31, 103, 153, 158], [10, 31, 153], [31, 103, 132], [10, 31, 103, 153], [31, 132],
    [31, 62, 83, 119, 150, 153], [10, 31], [31, 103, 158], [31, 101, 103], [10, 31, 132],
    [31, 103], [10, 31, 103, 132], [10, 31, 43, 62, 83, 101, 119, 136, 153, 158, 161], [31, 43],
    [31, 43, 62, 161], [10], [101], [29, 73, 143], [143], [73, 95, 125], [0, 3],
    [18, 40, 41, 79, 110, 117], [18, 44, 92, 110], [31, 43, 73], [25, 73], [5, 117],
    [5, 18, 40, 61, 80, 110, 130], [34], [0, 3, 110], [49, 152], [12, 49, 50, 55, 63, 95, 168],
    [12, 49, 50, 55, 63, 95, 125, 168], [12, 49, 50, 55, 63], [49],
    [12, 49, 50, 55, 63, 95, 156, 168], [12, 49, 50, 55, 63, 78, 95, 156, 168],
    [12, 49, 50, 55, 63, 168], [12, 49], [55, 63], [49, 55, 63], [49, 73],
    [31, 33, 45, 47, 61, 62, 69, 70, 81, 83, 94, 101, 132, 149, 158, 161],
    [31, 33, 45, 47, 61, 62, 69, 70, 81, 94, 101, 132, 149, 158, 161],
    [31, 33, 45, 47, 61, 69, 70, 81, 94, 149, 158],
    [31, 33, 45, 47, 61, 69, 70, 81, 94, 132, 149, 158], [10, 31, 161], [31, 150], [65, 73, 98],
    [15, 60], [3, 104], [3, 154], [27, 28, 77], [27, 77], [27, 76, 77], [3, 25], [85, 118]]

/-- The extensions of every character whose extensions are not its script alone. -/
def extensionTable : Table := .ofRuns
  (String.join [
    "fXAAqEABKACBCCBADJAEBACbGAFAAGAAHAAIAAJAAKAALAAMAANAAOAAPAAQAARAASAATBASAAUBAVPAWAAXAAYHAZAAYBA6",
    "AA7QA8CA8SA9FA+EM-EBbAiNAbBAAbCABbDAAbCiBAbEeCAbFOAbFAAbGCAbHbAAbIKKbJKJbKGAbJdDAbLt8AbMAAbNRAbO",
    "AAbPAJbQdWJbRdWJbSdWJbThWNbUhSJbV0QJbWfRAbXbpPCbYcHBbZgLBb6BAb6bgKAb7AAb8AAb7AAb9AAb8AAb+AAb-AAc",
    "AAAcBAAcCAAcDAAb8ABcCABb8AAcCAAcEAAcFAFb8AAcGAAcHAAcIAAb8AAcJADb8AAcKAAcLAAcMABcEAAcNABcLAAcOgFB",
    "8bWAcPBAcQrUAcR-AcSKAcTCAcUeSAcVdjGAcWYAcXAAcYKAcZEAc6BAbCnMPc7BAc8AAc9AAc+CAc-BBdAABdBAFdCBAc+A",
    "HdCADc+KDdDCAc+AEdEBAc+EBdFABc-cZDdEDAdEc6AdCAAdEeTPc-bAbFc-JAc7bQbHc-bYbQc-PLc-bTAc-cYYc-KEc-dA",
    "+c-2tQAbCeQHdGjICdHACdIABdJAAdKAAdJfXAdLBAdMb6AdNfAAdOu1OBdPfSAdQKAdQcHBc+i6EdCKAdEbNBdElABdRAAd",
    "SEbMdTDIdSnA7dUb5WAdVcaOAbUBAbUbXBbUdeTBbUBAbUbhgMDcZfv8Rc-hw+Bc-"])

/-- The script with the folded name `name`. -/
def named? (name : String) : Option Nat :=
  names.findIdx? (·.contains name)

/-- Whether `c` is assigned to `script`. -/
def contains (script : Nat) (c : Char) : Bool :=
  table.find? c.toNat == some script

/-- Whether `c` is used in `script`. -/
def extends? (script : Nat) (c : Char) : Bool :=
  match extensionTable.find? c.toNat with
  | some i => (extensionSets[i]?.getD []).contains script
  | none => contains script c

end Amend.Unicode.Script
