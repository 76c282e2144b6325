import Amend.Unicode.Category

/-!
# Properties that hold of a character or do not

The binary properties of Unicode 16.0 that patterns can name, and those that are defined from
them and the general category.
-/

set_option autoImplicit false

namespace Amend.Unicode.Property

/-- The property ASCII_Hex_Digit. -/
def asciiHexDigit : Table := .ofRanges
  "bQJHF6F"

/-- The property Alphabetic. -/
def alphabetic : Table := .ofRanges
  (String.join [
    "cBZGZbPAKAEAFWB+BoJELOEHABAcWA9RBBCDBAGABCBABTBcSBeKIfFBbFCAGbIbHNBABBBBBAI6ED9KFbXBGOdFBHEHECKC",
    "CAQbPNdEYbAJBEAFXCSTYHKFXBFIAIbJKLDGGcLBPBCEONSBHCBCVBGBADDDHCBCBBAIAEBBEMBKAECBFEBCVBGBBBBBBEEE",
    "BCBEAHDBARFLCBIBCBVBGBBBEDIBCBBDAPDVDECBHCBCVBGBBBEDHCBCBJBEBBENAQBBFDCBDDBBABBDBDCDLEEDCBCDAGAb",
    "IMBCBWBPDHBCBCIBBCCACD8DBHBCBWBJBEDHBCBCIBGBBDNCMMBCBbICHBCBCBAFDHEWFBCBRDXBIBACGIFBABHSBNbZFGGA",
    "bTBBABEBXBABSBCCEBAGAODbAAb-HBbDESEPBbDcDbWBACEQb-KDCbFBAFACbKBkMBDCGBABDCbIBDCbABDCGBABDCOBbYBD",
    "CcCbFPQcVCFDtLCQBZFcKDKHTLUMTMMBCBBMbTCSOAEAcDcYHbKFcFK+BLEIX9CELbLEZbW7Eb+CTbSAXBLCbRbTBOBHbTbJ",
    "CDKbLBKObWWCKbDCKFbKCCbJDBFBBDAFf-TbBLiVCFCbFCFCHBABABAB+CbUBGBADCBGDDCFEMFCBGdUANAQMdFAEACJBADE",
    "GABABABDBKCDFEEARbIzNbTbyWhEGDDBMbFBAFACbXHAQWJGBGBGBGBGBGBGBGB-bPAoVCZIHECEEcVGCBcZBDFbKBc9R-bQ",
    "PqAgn-cAvuMcDbNCiMDPKBUbOFHDdQbHICdGCcCCBBABHVTBbAYbTMcDBAbMFDABCKbAFbCN8DbSBLPAQPKEBbWJNSWDcEBA",
    "BAYCCPCDLFCFCFJGBGBbKBNGd6Vk3DMWEbQiiElNCdJbGGMEFLBMBEBABBBBBdLbBlKSb-CbVbILdUEBeGbEZGZLcYDFCFCF",
    "CCbDLBZBSBBBOCNbCd6cFbUiL8DbQbP-N9FbKF9CbDEHBEbKe9SbDEbDEbHIbTMKBOBGBBBKBOBGBBDbTMjWJVKHYFBbJBIc",
    "FFCABbLBBDACWKWJ+cBSBBKVKZcGbXGBcADBBFHBCB8bK8D8bDHB77bVKVKSNRdOcIbXbSNbSNbHbC7DAFWh6bJBBDBQCbXA",
    "D8KAIVbKRbOU7WJcFbLEKbYJANYXbSRDIbCDAJb-BDJBKABAbDRBbBCAGDb+GBABDBOBJHbYXDBHCBCVBGBBBEDHCBCBDAGA",
    "FG8JBACABbFBJBACABDBBDABAbMcBBCBDUC+cBCBBAfYbVCGZFbCb+BADAb7bVCAcH6CNVGfZbYdHb--HCACHBBB9BBCBCDc",
    "9HCbNCFBABB7bSCJRcHFAScIgHbA-IBbMBGBAbR9CVBNcJGBBBbLDABBBCBACBYFBBBbEBBBDBAkHWJQBbIDCdPAcP2ZdGdO",
    "RgDcsMdAPbbPRFZd26FsGgvZbObwRrYH+RcOR9SbPQD-UFSnQbMgTb-eAcKEbYHQcABBAMBOf5XIbgVbJJixHDBGBBBjCPA9",
    "CCAODImLciEdKFMDIHJEAf1BcUBcGBBCACBCDBLBABGBcABDCHBGB7BDBEBADGBkTCYBYB+BYB+BYB+BYB+BYBHbzU+GFgVG",
    "BQCGBBBEFb9bBAdQbMKGQAkB9SbLpE7hE9CApPGBDBBBOBgEb7cDDADAbfUDB6BBBACABJBDBABAGAEABABABCBBBACABABA",
    "BABABBBACDBGBDBDBABJBQFCBEBQtUZGZGZdtWbjw-bAebZGg9CfuBOhjQPtNcnCq9bpCe0KFec-"])

/-- The property Bidi_Control. -/
def bidiControl : Table := .ofRanges
  "bq8AgpRB6EbXD"

/-- The property Bidi_Mirrored. -/
def bidiMirrored : Table := .ofRanges
  (String.join [
    "bIBSABA8ABA9ABAbNAPAdt+Db09Bcm8BKBbWBOBfRAgADDFDADBDDBDBABAEIFABRFDJBBABHB-CDFAJBCSFBJECBEXCPIDU",
    "BHBbb9NcKACDBBBCFDFCDNmTVCFBNIAHFDAEEBBCEEABCCBKFCBMSBDCABACABDFBGCYBLBEDBBCBEbKCHBbHFABADEFCEAD",
    "EBAiAAqDDDBBBOBCJbLHnLJCHbtr9FFBfCBSABA8ABA9ABABBBBbv1XAbZAbZAbZAbZA"])

/-- The property Case_Ignorable. -/
def caseIgnorable : Table := .ofRanges
  (String.join [
    "bHAGALAbDABAcHAEABAEACBpXf-EBEAJBBAh7GgPAFAbRbMBABBBBBAbMALFKKBAbDAKUQAdFHBJBDbBABA+6c7Kb6KEACAY",
    "XbLCbMAHBFIbJbZbXABAEHEADGKBNAPAb6AEDIAUB6ACBbZAEBEBCCDA+BDALBbZAEEBBEAUBWFBAb6ACABDIAHBLB+Ab9AM",
    "AbSADAbXABCFCBDHBLB9Ab6ACAGAFBUB8BbZBEDIAUB9AcIAHCBAc6ACGLIdCACIJABGcJB7ABABAbXNBEBBFKBbDJAdGDBF",
    "BBCBZBECQDNACBGAPAc+AtAC3SC9B+B+BcABBGIACKDAFAbNEbTAcBBbCAdWCEBJAGCg7BCAb6ABGBABACHGJCAbHAI+bRDb",
    "QABEBAFAbIIMBbADCBBCbYABBDABCb6HCBcAFcSCBMBGEAGADBbSb+NAbCdEn9ABCLCNCNCNBMEIBKACACEbREBJBANAQMbT",
    "bAc2LBdRCd9APAdA-bPAoVAbEDDEFAc9Fc9C1yWAbhCFiOAdCDBJBA8DcQBObBcOAXCdHCDBIADAEAZBFAeXB6RNAbGHZKbO",
    "CbQACDCBRAVBcCFCBCBMAIAbDALAbTABCCBFBBA7AOBFBBAdEEJCdZACAEAtzQAeTQr9PDAMPbCACAfJAHAGALAbDABAbPAb",
    "NBcDAVCqBAhCAeVEbaFFBbJBIsGCBBFDbICEAfFBr9DbGA6EBAj7BcPDcGKbRDd7AbWObJACBKCbRDCBCAEAKAbSCbEEBHb+",
    "AMBbUIKDCAc-CCABBGACAe9ADHVBbZBDAbFGDEcGFNABABAOBcVHCCBAXAcUFBAEBBBhODGBBB7BcVHCABBdKABACFBAdFAB",
    "ACDBEiDIBBiABBAEAeQDCBEAbAJbIFCDIAJFCCbOMBBmWGBFBAcSVCGBBBBd6FDABBBGBAcIBDABAk7BLBbUEFABAXAfgVQG",
    "OlgILDCcoAEb7GJDp8CbIBpCAb-QcABBBqaLDBGBBde+BBDes8bNCWrACJPCG+DeUCb37bWEbRIAOAWEBObkQGBQCGBBBEFb",
    "9bBAfANlQAb9Dp7Eh+BxAGdNHcvPEydaBA+c-eAhP"])

/-- The property Cased. -/
def cased : Table := .ofRanges
  (String.join [
    "cBZGZbPAKAEAFWB+BgCBDEgPCbCHB+EdAAbKDCBCDBAGABCBABTBcSBeKIfFBbFJbIcyXbFBAFACbKBDvAcVCFceCKFbKCCc",
    "Af-cAiVCFCbFCFCHBABABAB+CbUBGBADCBGDDCFEMFCBGdUANAQMdFAEACJBADEGABABABDBFEACDFEEAR-DBzRbTbyWhEGD",
    "DBMbFBAFA4iSbNS9eEdFDDBb9CBBABHVEBCzVbKBNGcPt0AGMEbaJZGZbfFcPdAbDEbDdUKBOBGBBBKBOBGBBoDACCBbJBIb",
    "gFbSNbSc9VKVcy6b-vlAb-zmAcUBcGBBCACBCDBLBABGBcABDCHBGB7BDBEBADGBkTCYBYB+BYB+BYB+BYB+BYBHbzUJBTGF",
    "iFb9ceScDb5MZGZGZ"])

/-- The property Changes_When_Casefolded. -/
def changesWhenCasefolded : Table := .ofRanges
  (String.join [
    "cBZc6AKWBHbAABABABABABABABABABABABABABABABABABABABABABABABABABABABACABABABABABABABABBBABABABABAB",
    "ABABABABABABABABABABABABABABABABABBBABABABBBABBBCCDBBBCDBBBBABABBBACABBBCBABBDAHBBBBBBABABABABAB",
    "ABABACABABABABABABABABACBBABCBABABABABABABABABABABABABABABABABABABABABABABABABABABABABAHBBBCABDB",
    "ABABABAhWAbKABADAIAGABCBABBBQBIWAMCDBBABABABABABABABABABABABABBCBBABBCbSbQABABABABABABABABABABAB",
    "ABABABABABAJABABABABABABABABABABABABABABABABABABABABABABABABABABABBBABABABABABACABABABABABABABAB",
    "ABABABABABABABABABABABABABABABABABABABABABABABABABABABABABABABABABABABABABABABACbFbQAcyYbFBAFAzK",
    "FceCJGbKCCkAABABABABABABABABABABABABABABABABABABABABABABABABABABABABABABABABABABABABABABABABABAB",
    "ABABABABABABABABABABABABABABABABABABABABABABABABABABABABABABABABAFBCABABABABABABABABABABABABABAB",
    "ABABABABABABABABABABABABABABABABABABABABABABABABABABABABABABABABABABAJHIFKHIHIFLABABABAIHQbPCCCF",
    "FCCFLDMEFCCFjJADBGAbNPTAzSZbzQbPbQABCCABABABDBACAICBABABABABABABABABABABABABABABABABABABABABABAB",
    "ABABABABABABABABABABABABABABABABABABABABABABABABABABAIABAEA4kNABABABABABABABABABABABABABABABABAB",
    "ABABABABABATABABABABABABABABABABABABABAeHABABABABABABADABABABABABABABABABABABABABABABABABABABABA",
    "BABABABABABABABABABAKABABBBABABABAEABACABADABABABABABABABABABABEBEBABABABABABABABDBABBDAFABABABA",
    "YA16cPt0AGMEbaJZbgFbHeIbDe8KBOBGBBbxKbSe9Vcz6-vmA-4vAbB"])

/-- The property Changes_When_Casemapped. -/
def changesWhenCasemapped : Table := .ofRanges
  (String.join [
    "cBZGZb6AKWB+Bb-BcTB7CNCBBAEc8BRG6BBBABBDBBDBECABBCAHACABBDFFAKBfGAbKDCBDCBAGABCBABTBbODbABEBeEIf",
    "FBbFKbGcyYbFBAFACbKCCvAcVCFceCKFbKCCfZADAQAdRe7CABdVCFCbFCFCHBABABAB+CbUBGBADCBGDDCFEMFCBGjJADBG",
    "A7AR-DBzRbTbyWdQBBBBHdFHDDBMbFBAFA4iSbNS7eGNCb9JODCCEBYB9CBBABHYB08A8cPt0AGMEbaJZGZbfFcPdAbDEbDd",
    "UKBOBGBBBKBOBGBBbwDbSNbSc9VKVcy6b-vlAb-4uAcD"])

/-- The property Changes_When_Lowercased. -/
def changesWhenLowercased : Table := .ofRanges
  (String.join [
    "cBZdFWBGbBABABABABABABABABABABABABABABABABABABABABABABABABABABABACABABABABABABABACABABABABABABAB",
    "ABABABABABABABABABABABABABABABABBBABADBBABBBCCDBBBCDBBBBABABBBACABBBCBABBDAHBBBBBBABABABABABABAB",
    "ACABABABABABABABABACBBABCBABABABABABABABABABABABABABABABABABABABABABABABABABABABABAHBBBCABDBABAB",
    "ABAjBABADAIAGABCBABBBQBIbDAIABABABABABABABABABABABAFACABBCbSbQABABABABABABABABABABABABABABABABAJ",
    "ABABABABABABABABABABABABABABABABABABABABABABABABABABABBBABABABABABACABABABABABABABABABABABABABAB",
    "ABABABABABABABABABABABABABABABABABABABABABABABABABABABABABABABABABACbFc0JbFBAFAwScVceTAGbKCCkAAB",
    "ABABABABABABABABABABABABABABABABABABABABABABABABABABABABABABABABABABABABABABABABABABABABABABABAB",
    "ABABABABABABABABABABABABABABABABABABABABABABABABABAJABABABABABABABABABABABABABABABABABABABABABAB",
    "ABABABABABABABABABABABABABABABABABABABABABABABABABABAJHIFKHIHIFLABABABAIHYHIHIHIELELDMELEjJADBGA",
    "bNPTAzSZbzQbPbQABCCABABABDBACAICBABABABABABABABABABABABABABABABABABABABABABABABABABABABABABABABA",
    "BABABABABABABABABABABABABABABABABAIABAEA4kNABABABABABABABABABABABABABABABABABABABABABABATABABABA",
    "BABABABABABABABABABAeHABABABABABABADABABABABABABABABABABABABABABABABABABABABABABABABABABABABABAB",
    "AKABABBBABABABAEABACABADABABABABABABABABABABEBEBABABABABABABABDBABBDAFABABABAYAvzLZbgFbHeIbDe8KB",
    "OBGBBbxKbSe9Vcz6-vmA-4vAbB"])

/-- The property Changes_When_Titlecased. -/
def changesWhenTitlecased : Table := .ofRanges
  (String.join [
    "dBZb6AbJXBHBABABABABABABABABABABABABABABABABABABABABABABABABABABABACABABABABABABABBBABABABABABAB",
    "ABABABABABABABABABABABABABABABABACABABCCABACADAFACADCCACABABACAEACADABACADABAEABBBBBABABABABABAB",
    "ABABBBABABABABABABABABCBABADABABABABABABABABABABABABABABABABABABABADABABABABABABABABAIACBBAEABAB",
    "ABABFBBBABBDBBDBECABBCAHACABBDFFAKBfGAbLABADADCSA7bCBBDCBABABABABABABABABABABABEBACACAbUbPBABABA",
    "BABABABABABABABABABABABABABAJABABABABABABABABABABABABABABABABABABABABABABABABABABACABABABABABABB",
    "BABABABABABABABABABABABABABABABABABABABABABABABABABABABABABABABABABABABABABABABABABABABABABABABA",
    "bRbGdtQFceCIBAhOADAQAdSABABABABABABABABABABABABABABABABABABABABABABABABABABABABABABABABABABABABA",
    "BABABABABABABABABABABABABABABABABABABABABABABABABABABABABABABABABABABABABABGFABABABABABABABABABA",
    "BABABABABABABABABABABABABABABABABABABABABABABABABABABABABABABABABABABABABABIIFKHIHIFKHIHINCHIHIH",
    "IEBBGADCBBIDCBIHKCBBkWAbBPEA0LZb0GbPBADBBABABAGACAKABABABABABABABABABABABABABABABABABABABABABABA",
    "BABABABABABABABABABABABABABABABABABABABABABABABABABABAIABAEAMbFBAFA4iTABABABABABABABABABABABABAB",
    "ABABABABABABABABABATABABABABABABABABABABABABABAeHABABABABABABADABABABABABABABABABABABABABABABABA",
    "BABABABABABABABABABABABABABAKABACABABABABAEAEABBCABABABABABABABABABALABABABABABABABAEABACADABABA",
    "BABABA6A08A8cPt0AGMEbbJZbgNbHeIbDe7KBOBGBBbyDbSd9Vcz6-vmA-4vCbB"])

/-- The property Changes_When_Uppercased. -/
def changesWhenUppercased : Table := .ofRanges
  (String.join [
    "dBZb6AbJXBHBABABABABABABABABABABABABABABABABABABABABABABABABABABABACABABABABABABABBBABABABABABAB",
    "ABABABABABABABABABABABABABABABABACABABCCABACADAFACADCCACABABACAEACADABACADABAFBBBBBBABABABABABAB",
    "ABBBABABABABABABABABBBBBADABABABABABABABABABABABABABABABABABABABADABABABABABABABABAIACBBAEABABAB",
    "ABFBBBABBDBBDBECABBCAHACABBDFFAKBfGAbLABADADCSA7bCBBDCBABABABABABABABABABABABEBACACAbUbPBABABABA",
    "BABABABABABABABABABABABABAJABABABABABABABABABABABABABABABABABABABABABABABABABABACABABABABABABBBA",
    "BABABABABABABABABABABABABABABABABABABABABABABABABABABABABABABABABABABABABABABABABABABABABABABAbR",
    "bGc0IbKCCxYFceCIBAhOADAQAdSABABABABABABABABABABABABABABABABABABABABABABABABABABABABABABABABABABA",
    "BABABABABABABABABABABABABABABABABABABABABABABABABABABABABABABABABABABABABABABABGFABABABABABABABA",
    "BABABABABABABABABABABABABABABABABABABABABABABABABABABABABABABABABABABABABABABABIIFKHIHIFKHIHINCb",
    "UBBEABADCBBEADDCBIHKCBBEAkRAbBPEA0LZb0GbPBADBBABABAGACAKABABABABABABABABABABABABABABABABABABABAB",
    "ABABABABABABABABABABABABABABABABABABABABABABABABABABABABABAIABAEAMbFBAFA4iTABABABABABABABABABABA",
    "BABABABABABABABABABABABATABABABABABABABABABABABABABAeHABABABABABABADABABABABABABABABABABABABABAB",
    "ABABABABABABABABABABABABABABABABAKABACABABABABAEAEABBCABABABABABABABABABALABABABABABABABAEABACAD",
    "ABABABABABA6A08A8cPt0AGMEbbJZbgNbHeIbDe7KBOBGBBbyDbSd9Vcz6-vmA-4vCbB"])

/-- The property Dash. -/
def dash : Table := .ofRanges
  "bNAbk8AbTAdsBAbaFAcaJFb9AbHAPAmGAdaEACA-BEA8An+ATAdPAbtmQBbFAKAfJAdtAAj+A"

/-- The property Default_Ignorable_Code_Point. -/
def defaultIgnorableCodePoint : Table := .ofRanges
  "fNAvBAwMAc0CBbsTBcVEb57E6EbRPehUAbte7PhPAfAAcPIbpfHDfgPHyluFd5-"

/-- The property Deprecated. -/
def deprecated : Table := .ofRanges
  "kJAbjJAciDABAcbJBcgFFvZB1xgWA"

/-- The property Diacritic. -/
def diacritic : Table := .ofRanges
  (String.join [
    "c+ABAcHAGAEACBpXe+BHFFRBEAJBh9EgRAbXbMBABBBBBAeDHEBeGBEBDCcD6c7Kb6KbCBd+HbJJQ7b9AQADD8AcKAQAdOAQ",
    "AdOAQAbPCb8AQAHAdXAdOAQAdOAQAdNBQAd8AdPAMFBAdLANEcLB7ABABAEBcCCBBb+AdQABBbIBEEZGBAKBwBC3UB+AeUKJ",
    "Ak7CjEAUHCAbQOCKdIAPAbGIbWBb6ALBcCBcAFcSYEAGACCbSb+bQbDFLbFKn9ABCLCNCNCNBdhQCj9Ap6FdJDc-A3lSAMBB",
    "A8BcSBObBdGCdNBMAbFAeXA7RbZDbEAc-AMAbEAeVCcBDbTAdEEJCeABtzQAyBPiOABAbPAbNBcDAx8Abe-FBbJBIt9CEAfF",
    "Br7FbGA6EmPCcGKbRDgAAbJAcIBdYBb+AcMAJCdIBfSBcQBQAYGDEcZCBBNBc-ADAd7Bh7Bd+AdWBdTAiNBiCBEAe8AcTASA",
    "cRAnFAiCABBcRAnJBXAfhMOlgZAcoAEb7GrUBrCQcQBp5+DBGBBhyBbNCWrACDFIHCG+DduCb9gCGlXAb9Dx+BxAGdNCBC"])

/-- The property Emoji. -/
def emoji : Table := .ofRanges
  (String.join [
    "bDAGAFJdPAEAh2NAMAgYAWAc6FPBlPBMAfGAZKECgHAhHBKAJAb6DBEJACACBCAEACABBCADADBICFABAFLLBCABBBASACBS",
    "FBABBDBFACBEBLBFBCAFBBABBUBFFBDCAEACACFBACABABAGADAGAKBPACAEABAECBALBbQCJAOAOAlUBoPCTBbTAEAbg6AM",
    "AsZABAdplKAgKAfABMBOACJcLZBBXAUACIVBfObBCdPCBBCCcSCCBiGBb+LFBXHBCHMACDCAEBNBCAIBJAFCMCICCABAEAGA",
    "DAGcVbQcFFHCCEJDABBDACJhDLEAi7bOBJBfYdQMDJFbXHOCKGI"])

/-- The property Emoji_Component. -/
def emojiComponent : Table := .ofRanges
  "bDAGAFJh4TAgVAbxjLAb24WZp7EbnQDybtMc-"

/-- The property Emoji_Modifier. -/
def emojiModifier : Table := .ofRanges
  "d257E"

/-- The property Emoji_Modifier_Base. -/
def emojiModifierBase : Table := .ofRanges
  "jq9Ag7AQDdtdXAb8CCACCdVBCKVSDAECBCHABAYAgJBEAVAEBfOCDEcTAQCJALAr-ACAIHGAJJCCbYAb9BBBBARCBMhFCbKI"

/-- The property Emoji_Presentation. -/
def emojiPresentation : Table := .ofRanges
  (String.join [
    "iy6BgNDDACAqJBVBbSLbLATANAIBRBFBIAFAVAHBBAEACAHAEB8AbDABAECBAb9CYAOA07BbTAEAdrfOAgKAf+ACJcLZBAYA",
    "UACEBCVBfObAMIBcFBVMbKEEMQDADcGBABf6Cb+NDBXSA6BNAcWcUbQcFGADCCCEDLBHIhDLEAi7bOBJBfYdQMDJFbXHOCKG",
    "I"])

/-- The property Extended_Pictographic. -/
def extendedPictographic : Table := .ofRanges
  (String.join [
    "fJAEAh2NAMAgYAWAc6FPBlPBMAfGAZKECgHAhHBKAJAb6DBEJACACBCAEACABBCADADBICFABAFLLBCABBBASACBSFBABBDB",
    "FACBEBLBFBCAFBBABBUBFFBDCAEACACFBACABABAGADAGAKBPACAEABAECBALBbQCJAOAOAlUBoPCTBbTAEAbg6AMAsZABAd",
    "plKAbHDdELPBPAOBbFJdQBMBOACJTbX7OKAUACIBDJWGf7CdPCBBCCcSCCBDFh9Bb+LFBXHBCHMACDCAEBNBCAIBJAFCMCIC",
    "CABAEAGADAGcVbQcFFHCQDABFCMg6bFMDbYHKFbIH+BMDCNJbGMbOBJBfYcYHOeRiA59"])

/-- The property Extender. -/
def extender : Table := .ofRanges
  (String.join [
    "fXAqYB1OAnZAtWAeJAcZAxQAd-AckDAbYAtDAmOAcEAe2JAbLEdHBc9C1yWAbpWA4CAWAeJAdMAVBvd7AcaQBboLA7AEAbgH",
    "AjFAdUBpSCbgPAufJBbe8BBA2kYBbfRA0UC"])

/-- The property Grapheme_Base. -/
def graphemeBase : Table := .ofRanges
  (String.join [
    "bAc+bBMBsRdQHCFEGBABTBg-HfFBbFCbRCCbOABACACAJ6EFRJLABbNVPBdEIAGBCAE-CAB99cYLAObKJGDXEAJADAHOBYFA",
    "BKF+RbJbZbWBABDIDBCHJC8BBBHCBCVBGBADDDABBGBCBBANBBCEXFABFEBCVBGBBBBBBECYDBAHJCCBAMABIBCBVBGBBBED",
    "DIABBDAPBELHAIBBHCBCVBGBBBEDACAGBCBPBBCERLABFDCBDDBBABBDBDCDLFABBDCBCDAVUGCBHBCBWBPDADDTCCACBEJH",
    "JBKBCBWBJBEDBCABBYBBBEJBCOKBCBbICABBFCBCBBECBJEZCBBRDXBIBACGJBGGHJCCMbPBBLHIMbFBBABEBXBABJBBJACE",
    "BAJJCDbAXC6BABABNBbDSAFACEbRHBFBMbFbMEAGACBCYCDDPEMBBCFBOBbHBAFAClYBDCGBABDCbIBDCbABDCGBABDCOBbY",
    "BDCcCF8DZGcVCFCu8DcYHRNSDBJROMBCPbTCAHHBBLIDJGJGKFJGcYHECbBBAFcFK+EDCCEBBFHADbJCELbLEZGKDbYCBDbX",
    "BAJABBIFNJGJGNcWbPKDDHB8JLC-EBGbXBACCBANbPIBFODb9FbKCKLANAHDBFBCCAFf-cAiVCFCbFCFCHBABABAB+CbUBOB",
    "NCFBSCCBIBKFXHbQQBC6BMDbAb-eLEuZWKVbyTC-BkXDBFbMBAFACbXHBPWJGBGBGBGBGBGBGBGbBc9bCZBcYMgV6bZGPBcV",
    "EdEFbKBc9BcVJbPB2tMDbWJk7UbOEAK-CcPCFIgNCBBABHVPBCBDBYCEEJGbXIcDKLYMBbFIYLAM9GbPBBEBCBBMBKEGBYBb",
    "IGBCBLCBHBACJC-BbSBADBCECABAYQCHLFCFCFJGBGBb7EdUBBBDDJGk3DMWEbQiiElNCdJbGGMEFABXBEBABBBBBd8Qn8Cb",
    "VHAbAPQJWbCBSBDEEBeGEe8C+DFCFCFCCDGBGNBCLBZBSBBBOCNbCd6FCEbMDcXBMDAbPbMeD8DbQQ6EbDJ9FbFK9BbEENbK",
    "e9CJGbDEbDEbHIbTLLBOBGBBBKBOBGBBDbTMjWJVKHYFBbJBIcFFCABbLBBDACWBcHIIbQSBBFbAD6FAcAbXETCbOPDBCB8K",
    "IHIHb-bAbEGLJbVD8C6FZHDMGcQcIbXbSNbSHbJMJGbFIXIBgQ+BbJDACBQCb7bHIVLIWREDbG7UWJABbVPGE9BBCAMbQEBC",
    "BBDOYHJJbDFAJRIbCBCLbTJABHEBBPBTLRB7DBEFBBb-GBABDBOBKGbOBCNJIBBHCBCVBGBBBEDABABDCBCBDAMG8JBACABb",
    "FBABBPABBDABCBBbHbXIBDABUBABC+bPBBGABBBACACDIJfGbOBBGDCAC6bEbSIBBACDLJGMTbKBABBIBGJGT86DABBEAJWf",
    "ZbOJACAdEcSMHCACHBBBXBEBBGDBCJJcGHCbJIDBD7AKbHGBEHJAGBDbNNACINcIHJfWbBOJGIBbFOABFK8D-ZAHACAcLGBB",
    "BbFVAJJGFBBBbEEBBABAHJjWSCDJOBbDIBDWcWAPbRN26dGdOBELgDcsMdCNbbPRFZd26FsGgvZ9MCDJbwGrYH+BJEcQBJG9",
    "HAKbPHOKJBGBUFSnQbZgGc6dFcKFbXLMcAD8f5XIbgVbJJixHDBGBBBjCPA9CCAODImLciEdKFMDIHJCACAd1AhZGnTe8dTb",
    "8hVKbGCb7FCWBH9Eb8VcBDAd6TMTMcWJYeHcUBcGBBCACBCDBLBABGBcABDCHBGB7BDBEBADGBkTCjDCrRbXDbSHBNBGbdU+",
    "GFiFb9eSbMKGCJEBkA9SbLEJFAoQ7EJgW9CKEApAGBDBBBOBgECIbQcDHAEJEByRcDcMb8gCDB6BBBACABJBDBABAGAEABAB",
    "ABCBBBACABABABABABBBACDBGBDBDBABJBQFCBEBQbUBiObLEdDMOCOBOBbEKfNbY8NbLEIHBOFe64XEQDMDdWEc+GLEAPLE",
    "bXIJGbHI9CLEBb+kTMNCMDJFbXHOCKGIHeSBdFbaGbjw-bAebZGg9CfuBOhjQPtNcnCq9bpCe0KFec-"])

/-- The property Grapheme_Extend. -/
def graphemeExtend : Table := .ofRanges
  (String.join [
    "yAdPiTGiHbMBABBBBBAcIKbQUQAdFGCFCBBDbDA+6c7Kb6IJAYDBIBCBEbLCb7IbKXB-bXABAEHEADGKB9Ab6ABACDIAJAKB",
    "6ACBbZAEBEBCCDA+BDALBbZAEEBBEAUBWFBAb6ABBBDIAHCKB+Ab7ABAMAJAbIADAbXABCFCBDHBLB9Ab6ACBBADCBDHBLB8",
    "BbZBBACDIAJAKB9AcIAEACCBAIAcRACGMHdCACILGcJB7ABABAbXNBEBBFKBbDJAdGDBFBBCBZBECQDNACBGAPAv-C3SD8C9",
    "B+BcABBGIACKJAbNCBAdVBbCAdWCEBJAGCg7BCAb6ABGBABACHGJCAbQ+bRDbQJECbGIMBbADCFbYABBDABEbYHCBeYCBMBG",
    "EAGADBgGb-qMAgDbAc5+CeNAdA-rKFdJB3oUDBJbABcQBiQADAEAZBFAeXB6RNAbGHZKBAbMCbQACDCBCAbEAcDFCBCBMAIA",
    "bPAbTABCCBFBBAbKBIAhOACAEAtzQAxBPQPlOBs9AhCAeVEbuGCBBFDbICEAfFBr9DcBEj9BcPDcGKbRDd7AbWObJACBKCbR",
    "DCBHAb9CbEEBHb+AMBbUIBAIDCAc-CCDGACAe9ADHVBbZBBABAMAJAOGDEcDACFBACABCECBAOBcVHCCBAXAcRACFBACABBB",
    "BhLACDGBBB7BcVHCABBdKABACHdFABACDBEiDIBBhVAKDEAeQDCBEAbAJbIFCDIAJFCCbOMBBmWGBFBAcSVCGBBBBd6FDABB",
    "BGBAcIBDABAk7BLBbUEFCXAfhFAGOlgILDCcoAEb7GbaYAb-DcRALBtfLBetBbNCWq+EDFIHCG+DeUCb37bWEbRIAOAWEBOb",
    "kQGBQCGBBBEdEAfAGlXAb9Dp8Dh+BxAGdNGyfwVc-eAhP"])

/-- The property Hex_Digit. -/
def hexDigit : Table := .ofRanges
  "bQJHF6Fb5vJJHF6F"

/-- The property IDS_Binary_Operator. -/
def idsBinaryOperator : Table := .ofRanges
  "l5QBCJpRA"

/-- The property IDS_Trinary_Operator. -/
def idsTrinaryOperator : Table := .ofRanges
  "l5SB"

/-- The property ID_Continue. -/
def idContinue : Table := .ofRanges
  (String.join [
    "bQJHZEABZbPAKABACAFWB+BoJELOEHABARdUBBCDBAGEBABTBcSBeKBECfFBbFCAGbIIbMBABBBBBAI6ED9KFcJEdFBHCJBS",
    "CAQb6CdEObVEACACbNS7EKFXBFIcKBeACJBSBHCBCVBGBADDCICBCDIAEBBECLKABACCBFEBCVBGBBBBBBCABEEBCCDAHDBA",
    "HPLCBIBCBVBGBBBECJBCBCCAPDCJJGBCBHCBCVBGBBBECICBCCHCEBBECJBAQBBFDCBDDBBABBDBDCDLEEDCBDCAGAOJQMBC",
    "BWBPCIBCBDHBBCCACDCJQDBHBCBWBJBECIBCBDHBGBBDCJBCMMBCBbSBCBEFDHECJKFBCBRDXBIBACGDAEFBABHGJCBNbZFO",
    "BJbHBBABEBXBABWCEBABGBJCDbAAXBGJLABABAEJBbDETBRBbDJAbZcJGcNCbFBAFACbKBkMBDCGBABDCbIBDCbABDCGBABD",
    "COBbYBDCcCCCJIOPQcVCFDtLCQBZFcKDKHVJVLTMMBCBBMcTDAEBCJbBCBKGcYHbKFcFK+BLELKbHCELbLEZGKbF7Eb+B8CK",
    "GJNAINBPbRcMDJRIMdTMbXIJDbQCKFbKCCQCBbGFqVCFCbFCFCHBABABAB+CbUBGBADCBGDDCFEMFCBGPBbRBTA8ANAQMbTM",
    "EADLRAEACJBACFGABABABPCDFEEARbIctXhEGIMbFBAFACbXHAPXJGBGBGBGBGBGBGBGB-qFCZOBECEEcVCGBc+FbKBc9R-b",
    "QPqAgn-cAvuMcDbNCiMD7UbPEJBdSbFICdGCcCCBBABHVbVEATbTMcFKJGXDABbQCbDM8DcAOKG+BbWJNCJGWDcIYCCPCEKF",
    "CFCFJGBGBbKBNGd6BBCJGk3DMWEbQiiElNCdJbGGMEFLBMBEBABBBBBdLbBlKSb-CbVbILEPQPDBYCbAEBeGTJHZEABZKcZD",
    "FCFCFCCbDLBZBSBBBOCNbCd6cFbUeIAeC8DbQPA--N9FbKF9CbDEHBEbKe9CJGbDEbDEbHIbTMKBOBGBBBKBOBGBBDbTMjWJ",
    "VKHYFBbJBIcFFCABbLBBDACWKWJ+cBSBBKVKZcGbXGBcADBBFHBCB8CCEAbA8D8bDHB9ZbVKVKSNRdOcIbXbSNbSNbHIJGbF",
    "DEBWh6bJBBDBQCbXbAKAIbA-VbKU7WJcG-PJb7HANYHJGbUBJEDIbDCAJcEEDBMBAbDRBbEGDb+GBABDBOBJHb6FJGDBHCBC",
    "VBGBBBEBJCBCCCAGAFGCGDELJBACABbFBJBACABDBHNB9cKFJED+cFBAIJfGbVCIXFbCcADALJbGbYHJGT86COEJGGfZb6dF",
    "cJVHCACHBBB9BBCIMJcGHCbNCHBB7b+IAIcJDAScIgHbAPJGIBbMBIPJY9CVBNcJGBBBbLDABBBIIJGFBBBbEBBBFHJjWWJQ",
    "BbIDENKcVAcP2ZdGdORgDcsMdAPbbPQVKd26FsGgvZbZbwGrYH+BJGcOBJG9CELbWJDMJJUFSnQbMDJgGb-eAcKEbYHQcABB",
    "BLBOf5XIbgVbJJixHDBGBBBjCPA9CCAODImLciEdKFMDIHJDBecRJqGbNCWq+EDFIHCG+DeUCn7cUBcGBBCACBCDBLBABGBc",
    "ABDCHBGB7BDBEBADGBkTCYBYB+BYB+BYB+BYB+BYBHCbRqAbWEbRIAOAWEBObcQ+GFgVGBQCGBBBEFb9bBAdQbMDNCJEAkB+",
    "RbZoWbJgWbKpFGBDBBBOBgELGbJcLEJbfGDB6BBBACABJBDBABAGAEABABABCBBBACABABABABABBBACDBGBDBDBABJBQFCB",
    "EBQdjUJbaGbjw-bAebZGg9CfuBOhjQPtNcnCq9bpCe0KFec-vxkQhP"])

/-- The property ID_Start. -/
def idStart : Table := .ofRanges
  (String.join [
    "cBZGZbPAKAEAFWB+BoJELOEHABAeBEBBCDBAGABCBABTBcSBeKIfFBbFCAGbIcH6EDbNbKbDBBdCBAPBHBKCCAQAB99cYLAY",
    "bAJBEAFVEAJADAXYHKFXBFRbJb6bVDASAHJPPEHCBCVBGBADDDAQANBBCOBKAIFEBCVBGBBBBBB-DBATCQIBCBVBGBBBEDAS",
    "APBXALHCBCVBGBBBEDA+BBCPARABFDCBDDBBABBDBDCDLWAbUHBCBWBPDA6CCACB+AEHBCBWBJBEDA-BBBPBRIBCBbICAQAF",
    "CICYFFRDXBIBACGb6bPBBMGb6BBABEBXBABJBBJACEBAVDbAAb-HBbD7EdTbKUAQFEDDADBHCEMMARbFBAFACbKBkMBDCGBA",
    "BDCbIBDCbABDCGBABDCOBbYBDCcCbFPQcVCFDtLCQBZFcKDKHRNSOROMBCPbTbDAEAcDcYHbIBAFcFK+bR9CELbLEZbWWJbU",
    "cSAc9bORHbW9NBKbL6bDbJCKbDCKFbKCCbJDBFBBDAFf-cAiVCFCbFCFCHBABABAB+CbUBGBADCBGDDCFEMFCBGdUANAQMdF",
    "AEACJBACFGABABABPCDFEEARbIctXhEGDDBMbFBAFACbXHAQWJGBGBGBGBGBGBGBGrGCZIHECEEcVEEBcZBDFbKBc9R-bQPq",
    "Agn-cAvuMcDbNCiMDPKBUbOQ+CcPbHICdGCcCCBBABHVPBCBDBW9bTObRb+FDABBL7KWZ8HbO8AQEBJKEBbIXCBHUWDADbRB",
    "ADBCECABAYCCKHCMFCFCFJGBGBbKBNGdS9k3DMWEbQiiElNCdJbGGMEFABJBMBEBABBBBBdLbBlKSb-CbVbILdUEBeGbEZGZ",
    "LcYDFCFCFCCbDLBZBSBBBOCNbCd6cFbUiL8DbQbP-N9FbFK9CbDEHBEbKe9SbDEbDEbHIbTMKBOBGBBBKBOBGBBDbTMjWJVK",
    "HYFBbJBIcFFCABbLBBDACWKWJ+cBSBBKVKZcGbXGBcAAPDBCB8bK8D8bDHB77bVKVKSNRdOcIbXbSNbSNbDbG7JWh6bJGBQC",
    "b78KAIVbKRbOU7WMbUbZBCANbMbAY6bD9ACAIbCDAMbPODVABAbDRBYTBb-GBABDBOBJHbObGHCBCVBGBBBEDASAME+JBACA",
    "BbFBAZABAbMbUSDUC+bPUBBAfYbObJDbEbPUAb7bKNAcH6bFGfZbLdUb--HCACHBBBXPABAc+HCbGQABA8AKbHHAVALbNTAS",
    "cIgHbA-IBbERAbR9dQGBBBbFVAZFBBB-OAkHSPABMBbBd8AcP2ZdGdORgDcsMdAPbbPRFZd26FsGgvZ9bxCrYH+RcOR9SbPQ",
    "D-UFSnQbMgTb-eAcKFAcCMcABBA8f5XIbgVbJJixHDBGBBBjCPA9CCAODImLciEdKFMDIHJf1GcUBcGBBCACBCDBLBABGBcA",
    "BDCHBGB7BDBEBADGBkTCYBYB+BYB+BYB+BYB+BYBHbzU+GFiFb9eSbMKGQAkB9SbLpE7hE9CApPGBDBBBOBgEb7cDHAbfUDB",
    "6BBBACABJBDBABAGAEABABABCBBBACABABABABABBBACDBGBDBDBABJBQFCBEBQekEbjw-bAebZGg9CfuBOhjQPtNcnCq9bp",
    "Ce0KFec-"])

/-- The property Ideographic. -/
def ideographic : Table := .ofRanges
  "maGBZIOC4Fgn-cAup-wiAlNCdJ3iKA7f5XIbgVbJJjdHmLtiEbjw-bAebZGg9CfuBOhjQPtNcnCq9bpCe0KFec-"

/-- The property Join_Control. -/
def joinControl : Table := .ofRanges
  "iaMB"

/-- The property Logical_Order_Exception. -/
def logicalOrderException : Table := .ofRanges
  "dsAEd7EcxQCCAbeh6BCABB"

/-- The property Lowercase. -/
def lowercase : Table := .ofRanges
  (String.join [
    "dBZbPAKAEAbEXBHBABABABABABABABABABABABABABABABABABABABABABABABABABABABBBABABABABABABABBBABABABAB",
    "ABABABABABABABABABABABABABABABABABABACABABCCABACADBEACADCCACABABACABBBACADABACBCCGACACABABABABAB",
    "ABABABBBABABABABABABABABBCABADABABABABABABABABABABABABABABABABABABABABABABABABABABABABABGCACBBAE",
    "ABABABABcECbCHB+EdAAbLABADACDSA7bCBBDCBABABABABABABABABABABABEBACACBbTbPBABABABABABABABABABABABA",
    "BABABABABAJABABABABABABABABABABABABABABABABABABABABABABABABABABACABABABABABABBBABABABABABABABABA",
    "BABABABABABABABABABABABABABABABABABABABABABABABABABABABABABABABABABABABABABABAbQbIc0HbKBDxYFceCI",
    "BAdVf-cBABABABABABABABABABABABABABABABABABABABABABABABABABABABABABABABABABABABABABABABABABABABAB",
    "ABABABABABABABABABABABABABABABABABABABABABABABABABABABABABABIBABABABABABABABABABABABABABABABABAB",
    "ABABABABABABABABABABABABABABABABABABABABABABABABABABABABABABABIIFKHIHIFKHIHINCHIHIHIEBBGADCBBIDC",
    "BIHKCBBdZANAQMdNADBDA7AEAEACBIDEAbBPEA0LZb0GbPBADBBABABAEABBBHDABABABABABABABABABABABABABABABABA",
    "BABABABABABABABABABABABABABABABABABABABABABABABABABABABABABABABABBHABAEAMbFBAFA4iTABABABABABABAB",
    "ABABABABABABABABABABABABABABABATABABABABABABABABABABABABABCeFABABABABABABCBABABABABABABABABABABA",
    "BABABABABABABABABABABABABABABABABABABABJBABACABABABABAEABACABCBABABABABABABABABABAFAFABABABABABA",
    "BABAEABACADABABABABABAWCBABCzVbKBNGcPt0AGMEbbJZbgNbHeIbDe7KBOBGBBoDACCBbJBIbiFbSd9Vcz6-vmA-zm6Z6",
    "GBR6Z6DBABGBK6Z6Z6Z6Z6Z6Z6Z6Z678YBF6YBF6YBF6YBF6YBFBAbzUJBTGFiFb9cfUbB"])

/-- The property Math. -/
def math : Table := .ofRanges
  (String.join [
    "bLAQC-A9ABAbNAEAbFA-AwYCCA6BCCqPCgqNA7CLADANAODVELEcBMEADBEESAEACJBACFGADBCBBCBFDNBAcEXBFBBEBE-B",
    "AGBOiLIDUBc6A+6BAYALGn9BMJEFEBCBDEOABACFLHFBbZABA9DJCkQb-iAp-bQUCFbt48AzXFBAfCAQC9ABA9ABAeDAGDdn",
    "BBbrtQcUBcGBBCACBCDBLBABGBcABDCHBGB7BDBEBADGBkTCjDCbRfqADB6BBBACABJBDBABAGAEABABABCBBBACABABABAB",
    "ABBBACDBGBDBDBABJBQFCBEBQbUB"])

/-- The property Noncharacter_Code_Point. -/
def noncharacterCodePoint : Table := .ofRanges
  "b5oQ-qOBb55+Bb55+Bb55+Bb55+Bb55+Bb55+Bb55+Bb55+Bb55+Bb55+Bb55+Bb55+Bb55+Bb55+Bb55+Bb55+B"

/-- The property Pattern_Syntax. -/
def patternSyntax : Table := .ofRanges
  "bBOKG6DBA6DbCGBABBBABBEAEADAXA-AhyYXIOCSBJjRwPfAtV+bdLqAd-mBCEYPAbtiNBiFB"

/-- The property Pattern_White_Space. -/
def patternWhiteSpace : Table := .ofRanges
  "JESAdEAh2IBYB"

/-- The property Quotation_Mark. -/
def quotationMark : Table := .ofRanges
  "bCAEAeDAPAh08HZBdqHAoJDNCbtrBDf9AEAc6B"

/-- The property Radical. -/
def radical : Table := .ofRanges
  "luAZBcYMgV"

/-- The property Regional_Indicator. -/
def regionalIndicator : Table := .ofRanges
  "d2pGZ"

/-- The property Sentence_Terminal. -/
def sentenceTerminal : Table := .ofRanges
  (String.join [
    "bBAMAQAbkJAeTCfUAbLChWAb9ABADBjFBbxEByWAEByFAgGBe9BbNAFAj6BlCDfCBKBCB9Cf7BcBB3EAXBJCdfPCjSANAWBn",
    "NA3h8AiOBhDADAl+BcWBc-AeYBeTCeQBhZAurGACBb7ADBfJAMAQAcBAcxUBbh9EbMDf9BdVDd-CeBBGAQBcYBBBdMAjKBdV",
    "BlVBFOdJBhZCqFABAh7BcXBnEBvUBcKBszJBeFAcBBLArJBjIAtqGAhpIA"])

/-- The property Soft_Dotted. -/
def softDotted : Table := .ofRanges
  (String.join [
    "dJBgEAiZA+AbUAUAkAAdCABAgiJAbTANADAeEAe9AnFAgWBczSAdj3FBbSBbSBbSBbSBbSBbSBbSBbSBbSBbSBbSBbSBceGA",
    "jRB6A"])

/-- The property Terminal_Punctuation. -/
def terminalPunctuation : Table := .ofRanges
  (String.join [
    "bBAKABALBDAz+AIAqBAbZAcIAOABCfUAbLKBAhLBbWFBH-AiFBbhUBfMAEFjXByVHyFAd8CcHBe9CDAbHDCBj6BlCDfCBKBB",
    "C9Cf7Eb+B3EAXBJCdfPCjSANAEAKABBDBnMB3h7BiNChDEl+BcWBc-AeXCeTCd-AQBhZAurGACBbZCBDfJAKABALBDAcBACA",
    "bb6AbQAbeGAgHAjWBeYFcEFcZD3YEbMDf9GdQDd-CeBBGAQBcYEdMAjKBdVCMBlGDDOdJBhZCqFABAh7BcXBEBm+CbNAuFBc",
    "KBbjLErpZBeFAcBCKArJBjHBtqGAhpHD"])

/-- The property Unified_Ideograph. -/
def unifiedIdeograph : Table := .ofRanges
  "naAgn-cAup-wqOBBABBKABABBCCcboWbjw-bAebZGg9CfuBOhjQPtNenCe0KFec-"

/-- The property Uppercase. -/
def uppercase : Table := .ofRanges
  (String.join [
    "cBZdFWBGbBABABABABABABABABABABABABABABABABABABABABABABABABABABABACABABABABABABABACABABABABABABAB",
    "ABABABABABABABABABABABABABABABABBBABADBBABBBCCDBBBCDBBBBABABBBACABBBCBABBDAHACACACABABABABABABAB",
    "ACABABABABABABABABACACABCBABABABABABABABABABABABABABABABABABABABABABABABABABABABABAHBBBCABDBABAB",
    "ABAjBABADAIAGABCBABBBQBIbDACCDABABABABABABABABABABABAFACABBCbSbQABABABABABABABABABABABABABABABAB",
    "AJABABABABABABABABABABABABABABABABABABABABABABABABABABABBBABABABABABACABABABABABABABABABABABABAB",
    "ABABABABABABABABABABABABABABABABABABABABABABABABABABABABABABABABABABACbFc0JbFBAFAwScVceTAGbKCCkA",
    "ABABABABABABABABABABABABABABABABABABABABABABABABABABABABABABABABABABABABABABABABABABABABABABABAB",
    "ABABABABABABABABABABABABABABABABABABABABABABABABABABAJABABABABABABABABABABABABABABABABABABABABAB",
    "ABABABABABABABABABABABABABABABABABABABABABABABABABABABAJHIFKHIHIFLABABABAIHcIDMDMDMELDiGAEADCCCC",
    "ADEGABABABDCDKBFA6PTAzSZbzQbPbQABCCABABABDBACAICBABABABABABABABABABABABABABABABABABABABABABABABA",
    "BABABABABABABABABABABABABABABABABABABABABABABABABAIABAEA4kNABABABABABABABABABABABABABABABABABABA",
    "BABABABATABABABABABABABABABABABABABAeHABABABABABABADABABABABABABABABABABABABABABABABABABABABABAB",
    "ABABABABABABABABAKABABBBABABABAEABACABADABABABABABABABABABABEBEBABABABABABABABDBABBDAFABABABAYAv",
    "zLZbgFbHeIbDe8KBOBGBBbxKbSe9Vcz6-vmA-znAZ6Z6Z6ABBCACBCDBH6Z6BBDCHBG7BBDBEBADG7Z6Z6Z6Z6Z6Z+YbBYbB",
    "YbBYbBYbBAejVbBcaOZGZGZ"])

/-- The property Variation_Selector. -/
def variationSelector : Table := .ofRanges
  "gaLCBAbzpQP0axQhP"

/-- The property White_Space. -/
def whiteSpace : Table := .ofRanges
  "JESAdEA6Afo-Acl-K9BFAbPAd3AA"

/-- The property XID_Continue. -/
def xidContinue : Table := .ofRanges
  (String.join [
    "bQJHZEABZbPAKABACAFWB+BoJELOEHABARdUBBDCBAGEBABTBcSBeKBECfFBbFCAGbIIbMBABBBBBAI6ED9KFcJEdFBHCJBS",
    "CAQb6CdEObVEACACbNS7EKFXBFIcKBeACJBSBHCBCVBGBADDCICBCDIAEBBECLKABACCBFEBCVBGBBBBBBCABEEBCCDAHDBA",
    "HPLCBIBCBVBGBBBECJBCBCCAPDCJJGBCBHCBCVBGBBBECICBCCHCEBBECJBAQBBFDCBDDBBABBDBDCDLEEDCBDCAGAOJQMBC",
    "BWBPCIBCBDHBBCCACDCJQDBHBCBWBJBECIBCBDHBGBBDCJBCMMBCBbSBCBEFDHECJKFBCBRDXBIBACGDAEFBABHGJCBNbZFO",
    "BJbHBBABEBXBABWCEBABGBJCDbAAXBGJLABABAEJBbDETBRBbDJAbZcJGcNCbFBAFACbKBkMBDCGBABDCbIBDCbABDCGBABD",
    "COBbYBDCcCCCJIOPQcVCFDtLCQBZFcKDKHVJVLTMMBCBBMcTDAEBCJbBCBKGcYHbKFcFK+BLELKbHCELbLEZGKbF7Eb+B8CK",
    "GJNAINBPbRcMDJRIMdTMbXIJDbQCKFbKCCQCBbGFqVCFCbFCFCHBABABAB+CbUBGBADCBGDDCFEMFCBGPBbRBTA8ANAQMbTM",
    "EADLRAEACJBACFGABABABPCDFEEARbIctXhEGIMbFBAFACbXHAPXJGBGBGBGBGBGBGBGB-qFCZOBECEEcVCBCCBc+FbKBc9R",
    "-bQPqAgn-cAvuMcDbNCiMD7UbPEJBdSbFICdGCcCCBBABHVbVEATbTMcFKJGXDABbQCbDM8DcAOKG+BbWJNCJGWDcIYCCPCE",
    "KFCFCFJGBGBbKBNGd6BBCJGk3DMWEbQiiElNCdJbGGMEFLBMBEBABBBBBdLbBeKGgZSb-CbVbIJGPQPDBYCbBABADABABABA",
    "Bd9TJHZEABZKcZDFCFCFCCbDLBZBSBBBOCNbCd6cFbUeIAeC8DbQPA--N9FbKF9CbDEHBEbKe9CJGbDEbDEbHIbTMKBOBGBB",
    "BKBOBGBBDbTMjWJVKHYFBbJBIcFFCABbLBBDACWKWJ+cBSBBKVKZcGbXGBcADBBFHBCB8CCEAbA8D8bDHB9ZbVKVKSNRdOcI",
    "bXbSNbSNbHIJGbFDEBWh6bJBBDBQCbXbAKAIbA-VbKU7WJcG-PJb7HANYHJGbUBJEDIbDCAJcEEDBMBAbDRBbEGDb+GBABDB",
    "OBJHb6FJGDBHCBCVBGBBBEBJCBCCCAGAFGCGDELJBACABbFBJBACABDBHNB9cKFJED+cFBAIJfGbVCIXFbCcADALJbGbYHJG",
    "T86COEJGGfZb6dFcJVHCACHBBB9BBCIMJcGHCbNCHBB7b+IAIcJDAScIgHbAPJGIBbMBIPJY9CVBNcJGBBBbLDABBBIIJGFB",
    "BBbEBBBFHJjWWJQBbIDENKcVAcP2ZdGdORgDcsMdAPbbPQVKd26FsGgvZbZbwGrYH+BJGcOBJG9CELbWJDMJJUFSnQbMDJgG",
    "b-eAcKEbYHQcABBBLBOf5XIbgVbJJixHDBGBBBjCPA9CCAODImLciEdKFMDIHJDBecRJqGbNCWq+EDFIHCG+DeUCn7cUBcGB",
    "BCACBCDBLBABGBcABDCHBGB7BDBEBADGBkTCYBYB+BYB+BYB+BYB+BYBHCbRqAbWEbRIAOAWEBObcQ+GFgVGBQCGBBBEFb9b",
    "BAdQbMDNCJEAkB+RbZoWbJgWbKpFGBDBBBOBgELGbJcLEJbfGDB6BBBACABJBDBABAGAEABABABCBBBACABABABABABBBACD",
    "BGBDBDBABJBQFCBEBQdjUJbaGbjw-bAebZGg9CfuBOhjQPtNcnCq9bpCe0KFec-vxkQhP"])

/-- The property XID_Start. -/
def xidStart : Table := .ofRanges
  (String.join [
    "cBZGZbPAKAEAFWB+BoJELOEHABAeBEBBDCBAGABCBABTBcSBeKIfFBbFCAGbIcH6EDbNbKbDBBdCBAPBHBKCCAQAB99cYLAY",
    "bAJBEAFVEAJADAXYHKFXBFRbJb6bVDASAHJPPEHCBCVBGBADDDAQANBBCOBKAIFEBCVBGBBBBBB-DBATCQIBCBVBGBBBEDAS",
    "APBXALHCBCVBGBBBEDA+BBCPARABFDCBDDBBABBDBDCDLWAbUHBCBWBPDA6CCACB+AEHBCBWBJBEDA-BBBPBRIBCBbICAQAF",
    "CICYFFRDXBIBACGb6bPBANGb6BBABEBXBABJBAKACEBAVDbAAb-HBbD7EdTbKUAQFEDDADBHCEMMARbFBAFACbKBkMBDCGBA",
    "BDCbIBDCbABDCGBABDCOBbYBDCcCbFPQcVCFDtLCQBZFcKDKHRNSOROMBCPbTbDAEAcDcYHbIBAFcFK+bR9CELbLEZbWWJbU",
    "cSAc9bORHbW9NBKbL6bDbJCKbDCKFbKCCbJDBFBBDAFf-cAiVCFCbFCFCHBABABAB+CbUBGBADCBGDDCFEMFCBGdUANAQMdF",
    "AEACJBACFGABABABPCDFEEARbIctXhEGDDBMbFBAFACbXHAQWJGBGBGBGBGBGBGBGrGCZIHECEEcVGCBcZBDFbKBc9R-bQPq",
    "Agn-cAvuMcDbNCiMDPKBUbOQ+CcPbHICdGCcCCBBABHVPBCBDBW9bTObRb+FDABBL7KWZ8HbO8AQEBJKEBbIXCBHUWDADbRB",
    "ADBCECABAYCCKHCMFCFCFJGBGBbKBNGdS9k3DMWEbQiiElNCdJbGGMEFABJBMBEBABBBBBdLbBeKGgZSb-CbVbIJdXABADAB",
    "ABABABd9bEZGZLbXC+DFCFCFCCbDLBZBSBBBOCNbCd6cFbUiL8DbQbP-N9FbFK9CbDEHBEbKe9SbDEbDEbHIbTMKBOBGBBBK",
    "BOBGBBDbTMjWJVKHYFBbJBIcFFCABbLBBDACWKWJ+cBSBBKVKZcGbXGBcAAPDBCB8bK8D8bDHB77bVKVKSNRdOcIbXbSNbSN",
    "bDbG7JWh6bJGBQCb78KAIVbKRbOU7WMbUbZBCANbMbAY6bD9ACAIbCDAMbPODVABAbDRBYTBb-GBABDBOBJHbObGHCBCVBGB",
    "BBEDASAME+JBACABbFBAZABAbMbUSDUC+bPUBBAfYbObJDbEbPUAb7bKNAcH6bFGfZbLdUb--HCACHBBBXPABAc+HCbGQABA",
    "8AKbHHAVALbNTAScIgHbA-IBbERAbR9dQGBBBbFVAZFBBB-OAkHSPABMBbBd8AcP2ZdGdORgDcsMdAPbbPRFZd26FsGgvZ9b",
    "xCrYH+RcOR9SbPQD-UFSnQbMgTb-eAcKFAcCMcABBA8f5XIbgVbJJixHDBGBBBjCPA9CCAODImLciEdKFMDIHJf1GcUBcGBB",
    "CACBCDBLBABGBcABDCHBGB7BDBEBADGBkTCYBYB+BYB+BYB+BYB+BYBHbzU+GFiFb9eSbMKGQAkB9SbLpE7hE9CApPGBDBBB",
    "OBgEb7cDHAbfUDB6BBBACABJBDBABAGAEABABABCBBBACABABABABABBBACDBGBDBDBABJBQFCBEBQekEbjw-bAebZGg9Cfu",
    "BOhjQPtNcnCq9bpCe0KFec-"])

/-- The property Hyphen. -/
def hyphen : Table := .ofRanges
  "bNAd-Abg8Aet7AcaJBdqFAxDAbtlHAfJAcXA"

/-- The property Prepended_Concatenation_Mark. -/
def prependedConcatenationMark : Table := .ofRanges
  "bqAFgXAbRAmABcQAcb46APA"

/-- The characters with case that are not letters of that case, and the like: what a contributory
property adds to a category is the derived property without the category. -/
def beyond (derived : Table) (base : Category → Bool) (c : Char) : Bool :=
  derived.contains c && !base (.of c)

/-- The alphabetic characters that are neither letters, letter numbers nor of either case. -/
def otherAlphabetic (c : Char) : Bool :=
  beyond alphabetic (fun k => k.isLetter || k == .nl) c &&
    !lowercase.contains c && !uppercase.contains c

/-- The characters of a list of closed ranges. -/
def among (ranges : List (Nat × Nat)) (c : Char) : Bool :=
  ranges.any fun r => r.1 ≤ c.toNat && c.toNat ≤ r.2

/-- The set of characters with the property of the given folded name. -/
def named? (name : String) : Option (Char → Bool) :=
  match name with
  | "asciihexdigit" | "ahex" => some asciiHexDigit.contains
  | "alphabetic" | "alpha" => some alphabetic.contains
  | "bidicontrol" | "bidic" => some bidiControl.contains
  | "bidimirrored" | "bidim" => some bidiMirrored.contains
  | "caseignorable" | "ci" => some caseIgnorable.contains
  | "cased" => some cased.contains
  | "changeswhencasefolded" | "cwcf" => some changesWhenCasefolded.contains
  | "changeswhencasemapped" | "cwcm" => some changesWhenCasemapped.contains
  | "changeswhenlowercased" | "cwl" => some changesWhenLowercased.contains
  | "changeswhentitlecased" | "cwt" => some changesWhenTitlecased.contains
  | "changeswhenuppercased" | "cwu" => some changesWhenUppercased.contains
  | "dash" => some dash.contains
  | "defaultignorablecodepoint" | "di" => some defaultIgnorableCodePoint.contains
  | "deprecated" | "dep" => some deprecated.contains
  | "diacritic" | "dia" => some diacritic.contains
  | "emoji" => some emoji.contains
  | "emojicomponent" | "ecomp" => some emojiComponent.contains
  | "emojimodifier" | "emod" => some emojiModifier.contains
  | "emojimodifierbase" | "ebase" => some emojiModifierBase.contains
  | "emojipresentation" | "epres" => some emojiPresentation.contains
  | "extendedpictographic" | "extpict" => some extendedPictographic.contains
  | "extender" | "ext" => some extender.contains
  | "graphemebase" | "grbase" => some graphemeBase.contains
  | "graphemeextend" | "grext" => some graphemeExtend.contains
  | "hexdigit" | "hex" => some hexDigit.contains
  | "idsbinaryoperator" | "idsb" => some idsBinaryOperator.contains
  | "idstrinaryoperator" | "idst" => some idsTrinaryOperator.contains
  | "idcontinue" | "idc" => some idContinue.contains
  | "idstart" | "ids" => some idStart.contains
  | "ideographic" | "ideo" => some ideographic.contains
  | "joincontrol" | "joinc" => some joinControl.contains
  | "logicalorderexception" | "loe" => some logicalOrderException.contains
  | "lowercase" | "lower" => some lowercase.contains
  | "math" => some math.contains
  | "noncharactercodepoint" | "nchar" => some noncharacterCodePoint.contains
  | "patternsyntax" | "patsyn" => some patternSyntax.contains
  | "patternwhitespace" | "patws" => some patternWhiteSpace.contains
  | "quotationmark" | "qmark" => some quotationMark.contains
  | "radical" => some radical.contains
  | "regionalindicator" | "ri" => some regionalIndicator.contains
  | "sentenceterminal" | "sterm" => some sentenceTerminal.contains
  | "softdotted" | "sd" => some softDotted.contains
  | "terminalpunctuation" | "term" => some terminalPunctuation.contains
  | "unifiedideograph" | "uideo" => some unifiedIdeograph.contains
  | "uppercase" | "upper" => some uppercase.contains
  | "variationselector" | "vs" => some variationSelector.contains
  | "whitespace" | "wspace" | "space" => some whiteSpace.contains
  | "xidcontinue" | "xidc" => some xidContinue.contains
  | "xidstart" | "xids" => some xidStart.contains
  | "hyphen" => some hyphen.contains
  | "prependedconcatenationmark" | "pcm" => some prependedConcatenationMark.contains
  | "idsunaryoperator" | "idsu" => some (among [(0x2FFE, 0x2FFF)])
  | "idcompatmathstart" => some (among [(0x2202, 0x2202), (0x2207, 0x2207), (0x221E, 0x221E),
      (0x1D6C1, 0x1D6C1), (0x1D6DB, 0x1D6DB), (0x1D6FB, 0x1D6FB), (0x1D715, 0x1D715),
      (0x1D735, 0x1D735), (0x1D74F, 0x1D74F), (0x1D76F, 0x1D76F), (0x1D789, 0x1D789),
      (0x1D7A9, 0x1D7A9), (0x1D7C3, 0x1D7C3)])
  | "idcompatmathcontinue" => some (among [(0xB2, 0xB3), (0xB9, 0xB9), (0x2070, 0x2070),
      (0x2074, 0x207E), (0x2080, 0x208E), (0x2202, 0x2202), (0x2207, 0x2207), (0x221E, 0x221E),
      (0x1D6C1, 0x1D6C1), (0x1D6DB, 0x1D6DB), (0x1D6FB, 0x1D6FB), (0x1D715, 0x1D715),
      (0x1D735, 0x1D735), (0x1D74F, 0x1D74F), (0x1D76F, 0x1D76F), (0x1D789, 0x1D789),
      (0x1D7A9, 0x1D7A9), (0x1D7C3, 0x1D7C3)])
  | "otheralphabetic" | "oalpha" => some otherAlphabetic
  | "otherlowercase" | "olower" => some (beyond lowercase (· == .ll))
  | "otheruppercase" | "oupper" => some (beyond uppercase (· == .lu))
  | "othermath" | "omath" => some (beyond math (· == .sm))
  | "othergraphemeextend" | "ogrext" =>
    some (beyond graphemeExtend fun k => k == .mn || k == .me)
  | "otheridstart" | "oids" => some (among [(0x1885, 0x1886), (0x2118, 0x2118), (0x212E, 0x212E),
      (0x309B, 0x309C)])
  | "otheridcontinue" | "oidc" => some (among [(0xB7, 0xB7), (0x387, 0x387), (0x1369, 0x1371),
      (0x19DA, 0x19DA), (0x200C, 0x200D), (0x30FB, 0x30FB), (0xFF65, 0xFF65)])
  | "otherdefaultignorablecodepoint" | "odi" => some (among [(0x34F, 0x34F), (0x115F, 0x1160),
      (0x17B4, 0x17B5), (0x2065, 0x2065), (0x3164, 0x3164), (0xFFA0, 0xFFA0), (0xFFF0, 0xFFF8),
      (0xE0000, 0xE0000), (0xE0002, 0xE001F), (0xE0080, 0xE00FF), (0xE01F0, 0xE0FFF)])
  | _ => none

end Amend.Unicode.Property
