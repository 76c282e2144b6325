import Amend.Unicode.Table

/-!
# Ages and text boundaries

The version of Unicode in which a character was assigned, and the values that the rules for
boundaries between graphemes, words and sentences give it.
-/

set_option autoImplicit false

namespace Amend.Unicode.Break

/-- The folded names of the versions, oldest first. -/
def ages : Array (List String) :=
  #[["1.1", "v11"], ["2.0", "v20"], ["2.1", "v21"], ["3.0", "v30"], ["3.1", "v31"],
    ["3.2", "v32"], ["4.0", "v40"], ["4.1", "v41"], ["5.0", "v50"], ["5.1", "v51"],
    ["5.2", "v52"], ["6.0", "v60"], ["6.1", "v61"], ["6.2", "v62"], ["6.3", "v63"],
    ["7.0", "v70"], ["8.0", "v80"], ["9.0", "v90"], ["10.0", "v100"], ["11.0", "v110"],
    ["12.0", "v120"], ["12.1", "v121"], ["13.0", "v130"], ["14.0", "v140"], ["15.0", "v150"],
    ["15.1", "v151"], ["16.0", "v160"]]

/-- The version in which every character was assigned. -/
def age : Table := .ofRuns
  (String.join [
    "ApVAADDA9AAHDAAFAAGARDACGAKHANIAcYAAEDABGAbOAAADAJAAEDAQGAcFAAIDAAFAHGAEHACGABAAADAMFADJABAABJCA",
    "AACIAAAAAPEGABAABTABbLAAAJAGAAADABFAAAAADAAAAADAAAAADAAAAADARAABEAAFAEGADHAADALAAADAcBAAADALAAAD",
    "AbIAAAJABDABFADDAbUAABFABAABFABAABFAAIA7AABDAHAABHABAAFIAPFADIAPJABKABLAHPBbFACGAAATAbGAAATAAAAA",
    "DCBPAAMBQBAAHAMBAJAAAIAIAAABACHI6AEATAEALDGAAMAAPAEJAAHAAAAIGAEJAAAAAOAAXAAHAAAAALAZAAEJASAACDAC",
    "GAFHAALANAABFAcHAABDAEAAADAOAAADA9AABGAJAAEDAAGANDB9DACGA6DCCGA9HARJAbQDAAFOb6ICCTAbNKCOKB7LCALB",
    "KSF+XBBXFA6AHXAAMAAPAKMAFPABQAAXAHRAJWAKXAATAORAAQA6MAAPAAKACAAAGAbUAABLARAAAKAALAEAAAKABLAYAABJ",
    "AELAAPABKABIAAHABIAAPACABHACBACVABGABAADDACAAAAGAGACBACCAAAHIAAEBABEACUAAAKABSAATCAGAAAAAGBFAEBA",
    "CVABGABBABBABBACAABEAEBACCADAJHDABAAHOAAAJAATKCABGAAAGAAABCABVABGABBABEACJABCABCACAAPAAACGCJAAAM",
    "AAGHAQAFSBCABHACBACVABGABBABAGADACHAAAJCBACCAHAWABAEBABCAABJCKAAAGAFLKBABFADCABDADBABAABBADBADCA",
    "DHAAAHACAEEADCABDACAJGAAOAHALAAHGFAPACAAATAHABCABWABJAAAPAEACAXAAJAGABCABDAHBABBJAAQCAXCBAABJCJA",
    "HAUAHJAARAAPABAAATAHABCABWABJABEACBGAGABCABDAHBAGAXAAABBAABICJABBIAAYMASAAPABAAAWAHABCABWAAALAPA",
    "AALABSAAJAFAAAJBCABDAAALAARECRAAAAGRAAQABAABJCJAAFJACRAGJBAWABDBRDDXDBIDBADCGDDADEFDBADBHDGJPCCD",
    "MbZAE8AbFBABAABAUABAAAUAAABAUAAAAFUADAAAUAGAAAUACABAABAAABUABAAAUAMAAAUACACEABAABFAAAYBJACBAABMb",
    "AcHBBbABAADABJE6BADLAFBAADAABBUBACDAGBAADAABACDBODBAJAADABHACJADKABLbFbBDAAJAEDAAJABDAAJAGDACJAD",
    "DAFJAZDAb-JADKABJAbFABAMFAMCbGAABFABHAAAAAHACMAcZAAEKAcDAAEKAcRAAFKAGDAAHAb+DAAHAADBDDCGDBADBDDC",
    "bGDAAHAADBDDC+DAAHAADBDDCGDBADBDDCGDAAHAGDBWDAAHA+DAAHAADBDDCGDAAHAbGDAAHASDCBLABHA7DDZHGcUDAAQC",
    "FQCAKAtVDAIKA8DDcQDAHPHMFAAXAGFAAXJAXAWFJTFMMFBCFBBFMc8DAAGCJDGJGGODAAXAJDGcXDAATHbJDAAJFcFKK8GA",
    "BPBLGELGEAGDbJGCEGLbJHABKEZHGJHAAKDBHA-GA7HCBHAb+KB8KCKKGJKGNKCOPABWANXbRcLIAAXBB6AbMIABXAA6AbKJ",
    "ACMALJAFMAbTLIDLAbXJDOJDbSJAIRAB6FbKTCCTAHMIbCKADMAASABPAAUFdLGAcXHAGIA7JAOPADSAAXAARAALAAKABIAe",
    "6AAABADJAcZAAFJAVACFACbFACFACHABAABAABAAB+ACbUABOABNACFABSACCABIABbOAAADAWAAAFAFDAEFABGABHAAFAGH",
    "AEFAAJBDOAGAAAFC6ABEHAHLDKAAABAACACDABFADHACKAALAANACPAAQAASAAXPRAABDAGFAAHADIAAJPbYAABDAAGAAHAO",
    "FAAHABIAAJACKAbPAAADAAIADJAAKABQEc6AAIDALFAhRAANFAAAAADAdYAAADAAFA9DAbTFABGAKHALIAAKAKLAGPADRAAS",
    "AbEAABDAC6WKAVeKAATFAAGAeVAAJFAcPAAHDAHFATAABGABFAAHAADAcVAABDALFABHAJFAHGAKHAAJABKABGAPHAAIAJJA",
    "CKADJAJKAALASKAALAAKADLAXKAAPADAAALADAABLA7AAALAbCAAALAAAAALADAACLAAAAAKAGAABLAGAANFA+AACLAXAAAL",
    "ANAAALAGHADIAAMAAJAAMABLA7FADJAPFAh-DAp-FANGAFHAGIAEJADIAbIJACPAEJAEKAZPC-PBAWAbBPACTALPAAUAHPAA",
    "SAYTADQAOTAAUAbOHAAXAbOHAAXAMIACJAAKACJADIAFJABKAdKHAGKABMFbMHBAMFAMCbVHABMHAHAALOALAWHJGHBGHBGH",
    "BGHBGHBGHBGHBGHB-JAXHADJABHASJAAKAJMAGPABRAESAETAAUACWAKXbCZDBcYDMgVD6LDADZAbXAACDACFAADAAABcTAA",
    "BFCFAABFAc9AAAFFbHAAAJAASAATBc9ABPAAXDACLAEWAPHATJAB6JAZAPFA8AABGBbDAALKAAGAOFA7AABGAAHAbRAAOFAL",
    "AADGAbOAAAVAdWAADGAdCAABGA+AAAGAgnVDAJWAb-GAunFAAVHAHJAHKAAMAIQAUSAETAMWACXAbeMDDRDABFAPDAAFALDA",
    "AFACDAAFAADJbPKAjLJU-JABLARJAHMA7JAFPAAQAAMAcXKIWHADIAEJABIAdKJABLAAQABLABMALPAJLAAMACPAARAATABP",
    "AFQABTAFUABXAEUADWAC6CBXBAXBEXAC6VCXABWAAPABMAALAEJAbLHAAWDJKGbXIIcEJAARILJG7KABQABTAcTJLAJA8KDc",
    "NKBKKEBKA+PBbWJJNJCJJCDJA7KADPAcCKYEKAWMKFLCFLCFLJGLBGLBbPPADQABPABUADWEcPQAbNKCJKGk3DBMWKEbQKEb",
    "5-BAgrNAABMAb6FACKCdJHbGGAMEAFADAYABEABAABBABBABdLAAPLAAXQlMAAPXAb-ACbVAHAXA-EALAAAFAAGABXAPFAJH",
    "GDAACJAGPABQAUAABFABGAJABSABDAECAAAFAAABeGACAABc9AABFAc9ADFACFACFACCADGABGAKCDAACACAALGBZGBSGBBG",
    "BOGCNGbCd6GFCGEbMGDIGAcKHABPABRBLJAAWDAPbPbNJeC8JDbQJP7PE+EAAPADEJCSA6EFbKPF9GBAGAbDHENHbKbFEABG",
    "AbFEAcPGCJGGbDREbDREbHPIbTPLAPAKXBOXBGXBBXBKXBOXBGXBBXDbT6MjWPJVPKHPYFXBbJXBIXcFFGCAGBbLGBBGDAGC",
    "AGAVKBIKAb+PIIPbQSQBBQFEQAZIABKDAIAZJFAJcAbXMEBQABMAPQCbNQADHBBHFHHBCHB6HABTCCHEIHAATHIHH-KA-PbA",
    "bGPELPJbVKD8KC6KFHKARPHDPMGPcQcIKbXbSQNbSQHFQAbHTIJTGbF6D86IB6gQ+KBbJWBCWCBWQC6bXA6ACYAbHTIbJTWZ",
    "XbG7WUWUJcNLE9LAFXJAPAcBKAAXKATCYMHJMGbUMBNMACTAAWIbGPJcIMADQAAPABWAJMAAPAEQBTPLRPBbKPAARACYb+GQ",
    "BAQBDQBOQBKQGb6PFJPGAQACPBHPCBPCVPBGPBBPBEPBATAIPCBPCCPCAQGAPFGPCGPDEPLJ6BA6CA6BbF6BJ6BA6CA6BD6B",
    "J6BB6IB69cZRAAWAARBARAATAAUABW+cHPIJPfGbVPCRPATQbCcEPLJPGMRTbXMAAUAAXGJMGT68ZQAATCOQEPQAGXfZb7Td",
    "EcSPMAPAGWCAWCHWBBWB9WBBWCLWJJWcGHUCbNUCKU7cHSIbTSABUAWSAATAESNPXAbYPHJYfWbB6OJ6GIRBbMRBNRK8RD-R",
    "CVRBNRcJGSBBSBbLSDASBBSBISIJSGFTBBTBbETBBTBFTHJTjWYTHQYBbIYD7YAA6cVAWPbRUNAUA1OIAbJPAAQdGdCIALPB",
    "DIAAPLgDQcsMdCXNbbOKAAYAIUA8YKd266FsGQgvZbZ6bwGrYLH+PBJPEBPAcOXBJXG9PCFPKcFPKJPBGPBUPFSPnQbZ6gGc",
    "6TdFcEMAFUEAUAbOMAIUHQMcAARAASABUAAWLBWOf5MRAETAFUIxSRApCWbJA6AIWixHDXBGXBBXBBLAi8SADXPAY9CUCAYO",
    "DUImLSciEdKPFMPDIPHJPCHPd08hZ6GnT6cMbNXCWXJdTXb8hVEKbGECAJAfTEAKQABXVcFHd6TYMTTMcWGJRIAGTeHcUEBc",
    "GEBBECAECBECDEBLEBAEBDEAAGABEBcAEBDECHEBGEB7EBDEBEEBAEDGEBkREABHCjBEABICbREAuLQPEQBOQbcQ+XGFYgVG",
    "RBQRCGRBBRBERFb9YbBAYdQbMUDNUCJUEBUkA+XRbZUFAUoQbJYgWbK6EA6pAGXBDXBBXBOXBgEPCPPbJcKRAAUEJREBRyRc",
    "DTcMb8UgCDMB6MBBMBAMCAMBJMBDMBAMBAMGAMEAMBAMBAMBCMBBMBAMCAMBAMBAMBAMBAMBBMBAMCDMBGMBDMBDMBAMBJMB",
    "QMFCMBEMBQMbUBMiObLJEdDJMOLCNLAAPBOLBOLAVPKKKABPACWA+KAATAALAAKAKLAAKAALAAKABLAAKACLAAKACLAEKAHL",
    "AAKAGLAAKAJLABMAAUACWAILAAKAALABKABLAAKAJLADKABLAAKAJLARRAAWbYZLAAKABLNbBKAILAAREIKHBLOFSe6bALAL",
    "PACQAFLAAPAcFLAAPABQATLALPAbELAAPAELADPAEQALPAQLAGPAHQAb+LAAPAALAAPAfVLAAPADLABPAAQAb9LABPADMAGP",
    "AEQAXLARPAARAbIPAARAcVPAELAAMAPLAAMACLAAMAALAAMAALAAMAALAAMACLAAMAFLABMADLAAMAALABMADLAAMALLABPA",
    "BQAKLAbPPAcFLAJPAAQABRABSAAUABWEAYACXAMPDDPACRABSAATAAUABWDdTLACYEEYAcUPADTAAYGLUEAXPLPEbXPIJPGb",
    "HPI9PCBWAJ6EB6b+LSAAWACUAIQAFRAASAHRAHSAARABSALRAAUALRAASACTAORAMSAETAAUAAWADTABWAAXAATAAUADTAEQ",
    "AMRAFSAKTABWAFUACWABUAJTAFUAAQABTAHUAAWAAXACUAWSAYTAcTUMNTCDUAAWACYACUABXDCUADWABYAA6FA6AFUASWAD",
    "XACYAGWADXACYAA6AAYACWACXAA6HBYAGWACXABYAA6CA6AHXAAYAA6GGXABYHeSWBbWWAbE6AJWbaEBBAbjwWEAGWABXbAe",
    "bUKADXAAYGg9LCfuBQOhjQSPtNZcnCq9EbpABBAe0KWFec-YbxcOBBb55+BBb55+BBb55+BBb55+BBb55+BBb55+BBb55+BB",
    "b55+BBb55+BBb55+BBBAE+c-EeAhPGb5qOeaaBB"])

/-- The folded names of the values of Grapheme_Cluster_Break. -/
def graphemeNames : Array (List String) :=
  #[["cr"], ["control", "cn"], ["extend", "ex"], ["l"], ["lf"], ["lv"], ["lvt"],
    ["prepend", "pp"], ["regionalindicator", "ri"], ["spacingmark", "sm"], ["t"], ["v"], ["zwj"]]

/-- The value of Grapheme_Cluster_Break for every character whose value is not `Other`. -/
def grapheme : Table := .ofRuns
  (String.join [
    "AJBAAEABBAAAARBc-bABNABsSdPCiTGCiHbMCBACBBCBBCBACbYFHKKCBABbOUCQACdFGCAAHBFCCBCBDCbBAHBAC+6Cc7KC",
    "b6ICJACYDCBICBCCBECbLCCbUBHFICbKXCAAHA-CAAJbWACAAJAACBCJAHCADJAACABJBGCKBC9ACABJbYACBACABJADCCBJ",
    "CBJAACJACKBC6ACCBCAAJbYACBCJABCEBCCCCDAC+BCDACLBCAAJbYACBCJAECBBCAAJBBJAACUBCWFCBACABJbYACBBCAAJ",
    "ADCCBJCBJAACHCCKBC+ACb7ACAAJAACABJDCJBCJAACJACbIACACJAACbXACBCCADJBCCBDCHBCLBC9ACABJbYACBAJAACAB",
    "JAACABJBACABJBBJABCHBCLBCPAJMBCABJbXBCBACABJADCBCJBCJAACAAHIACKBC9ACABJcGACEACABJACCBACBGJAACSBJ",
    "b9ACBAJAGCMHCdCACBAJAICLGCcJBC7ACBACBACEBJbRNCAAJAECBBCFKCBbDCJACdGDCAAJAFCBBCABJABCXBJABCECCQDC",
    "NACBAJABCGACPACdCc-DAcHLAcXKk9CC3SCCAAJ8BCAAJ9BC+BCcABCAAJAGCAHJAACABJAKCJACbNCCAABAACdVBCbCACdW",
    "CCADJABCACJEBJAACAFJACCg7BCABJAACbZAJAACAAJAGCBACBACCHCAFJAJCCACbQ+CbRDCAAJbPGCAAJAACAEJAACABJbG",
    "ICMBCAAJ+AJADCABJABCAAJACCbYACAAJABCACJAACAAJACCABJbQHJAHCABJABCeYCCBMCAAJAGCEACGACCAJABCgGb-CqL",
    "ABAACAAMABBYGBbRPBdAbACc5+CCeNACdA-CrKFCdJBC3oUDCBJCbABCcQBCiQACDACEACXBJABCAAJEACcTBJbSPJABC6RC",
    "NACbGHCZKCABJM8DDCCAAJbPACABJADCABJABCACJbEACcDFCABJABCABJABCMACIACAAJbOACbTACBCCCBCFBCBACbJAJAB",
    "CABJFAJAAChMBJAACABJAACABJBAJAACSAFA6GAAFA6GAAFA6GAAFA6GAAFA6GAAFA6GAAFA6GAAFA6GAAFA6GAAFA6GAAFA",
    "6GAAFA6GAAFA6GAAFA6GAAFA6GAAFA6GAAFA6GAAFA6GAAFA6GAAFA6GAAFA6GAAFA6GAAFA6GAAFA6GAAFA6GAAFA6GAAFA",
    "6GAAFA6GAAFA6GAAFA6GAAFA6GAAFA6GAAFA6GAAFA6GAAFA6GAAFA6GAAFA6GAAFA6GAAFA6GAAFA6GAAFA6GAAFA6GAAFA",
    "6GAAFA6GAAFA6GAAFA6GAAFA6GAAFA6GAAFA6GAAFA6GAAFA6GAAFA6GAAFA6GAAFA6GAAFA6GAAFA6GAAFA6GAAFA6GAAFA",
    "6GAAFA6GAAFA6GAAFA6GAAFA6GAAFA6GAAFA6GAAFA6GAAFA6GAAFA6GAAFA6GAAFA6GAAFA6GAAFA6GAAFA6GAAFA6GAAFA",
    "6GAAFA6GAAFA6GAAFA6GAAFA6GAAFA6GAAFA6GAAFA6GAAFA6GAAFA6GAAFA6GAAFA6GAAFA6GAAFA6GAAFA6GAAFA6GAAFA",
    "6GAAFA6GAAFA6GAAFA6GAAFA6GAAFA6GAAFA6GAAFA6GAAFA6GAAFA6GAAFA6GAAFA6GAAFA6GAAFA6GAAFA6GAAFA6GAAFA",
    "6GAAFA6GAAFA6GAAFA6GAAFA6GAAFA6GAAFA6GAAFA6GAAFA6GAAFA6GAAFA6GAAFA6GAAFA6GAAFA6GAAFA6GAAFA6GAAFA",
    "6GAAFA6GAAFA6GAAFA6GAAFA6GAAFA6GAAFA6GAAFA6GAAFA6GAAFA6GAAFA6GAAFA6GAAFA6GAAFA6GAAFA6GAAFA6GAAFA",
    "6GAAFA6GAAFA6GAAFA6GAAFA6GAAFA6GAAFA6GAAFA6GAAFA6GAAFA6GAAFA6GAAFA6GAAFA6GAAFA6GAAFA6GAAFA6GAAFA",
    "6GAAFA6GAAFA6GAAFA6GAAFA6GAAFA6GAAFA6GAAFA6GAAFA6GAAFA6GAAFA6GAAFA6GAAFA6GAAFA6GAAFA6GAAFA6GAAFA",
    "6GAAFA6GAAFA6GAAFA6GAAFA6GAAFA6GAAFA6GAAFA6GAAFA6GAAFA6GAAFA6GAAFA6GAAFA6GAAFA6GAAFA6GAAFA6GAAFA",
    "6GAAFA6GAAFA6GAAFA6GAAFA6GAAFA6GAAFA6GAAFA6GAAFA6GAAFA6GAAFA6GAAFA6GAAFA6GAAFA6GAAFA6GAAFA6GAAFA",
    "6GAAFA6GAAFA6GAAFA6GAAFA6GAAFA6GAAFA6GAAFA6GAAFA6GAAFA6GAAFA6GAAFA6GAAFA6GAAFA6GAAFA6GAAFA6GAAFA",
    "6GAAFA6GAAFA6GAAFA6GAAFA6GAAFA6GAAFA6GAAFA6GAAFA6GAAFA6GAAFA6GAAFA6GAAFA6GAAFA6GAAFA6GAAFA6GAAFA",
    "6GAAFA6GAAFA6GAAFA6GAAFA6GAAFA6GAAFA6GAAFA6GAAFA6GAAFA6GAAFA6GAAFA6GAAFA6GAAFA6GAAFA6GAAFA6GAAFA",
    "6GAAFA6GAAFA6GAAFA6GAAFA6GAAFA6GAAFA6GAAFA6GAAFA6GAAFA6GAAFA6GAAFA6GAAFA6GAAFA6GAAFA6GAAFA6GAAFA",
    "6GAAFA6GAAFA6GAAFA6GAAFA6GAAFA6GAAFA6GAAFA6GAAFA6GAAFA6GAAFA6GAAFA6GAAFA6GAAFA6GAAFA6GAAFA6GAAFA",
    "6GAAFA6GAAFA6GAAFA6GAAFA6GAAFA6GAAFA6GAAFA6GAAFA6GAAFA6GAAFA6GAAFA6GAAFA6GAAFA6GAAFA6GAAFA6GAAFA",
    "6GAAFA6GAAFA6GAAFA6GAAFA6GAAFA6GAAFA6GAAFA6GAAFA6GAAFA6GAAFA6GAAFA6GAAFA6GAAFA6GAAFA6GAAFA6GAAFA",
    "6GAAFA6GAAFA6GAAFA6GAAFA6GAAFA6GAAFA6GAAFA6GAAFA6GAAFA6GAAFA6GAAFA6GAAFA6GAAFA6GAAFA6GAAFA6GAAFA",
    "6GAAFA6GAAFA6GAAFA6GAAFA6GAAFA6GAAFA6GAAFA6GAAFA6GAAFA6GAAFA6GAAFA6GAAFA6GAAFA6GAAFA6GAAFA6GAAFA",
    "6GAAFA6GAAFA6GAAFA6GAAFA6GAAFA6GAAFA6GAAFA6GAAFA6GAAFA6GAAFA6GAAFA6GAAFA6GAAFA6GAAFA6GAAFA6GAAFA",
    "6GAAFA6GAAFA6GAAFA6GAAFA6GAAFA6GAAFA6GAAFA6GAAFA6GAAFA6GAAFA6GAAFA6GAAFA6GAAFA6GAAFA6GAAFA6GAAFA",
    "6GAAFA6GAAFA6GAAFA6GAAFA6GAAFA6GAAFA6GAAFA6GAAFA6GAAFA6GAAFA6GAAFA6GAAFA6GAAFA6GAAFA6GAAFA6GAAFA",
    "6GAAFA6GAAFA6GAAFA6GAAFA6GMWLEbQKizCACxBPCQPCgPABe+BCcQLBqBAChCACeVECbuGCCBBCFDCbICCEACfFBCr9DCc",
    "BECj9BCcPDCcGKCbRDCd6AJAACAAJbVOCbJACCBCKCCAAJbNCJADCABJABCCAHEACKAHbSCCbEECAAJAHCQBJbMACMBCAAJb",
    "QCJAICABJBBHFDCBAJAACc8CJACCABJAACAAJABCGACCACe9ACACJAHCVBCABJbXBCBACAAJAACADJCBJCCJJACKBJCGCDEC",
    "cDCJAFCBAJCAJBDJBBJAACAAJAACBACOBCcSCJAHCABJACCAAJAACXACcRACABJAFCAAJAACABJAACAAJABCAAJABChLACAB",
    "JADCCDJABCAAJABC7BCcSCJAHCABJAACAAJABCdKACAAJAACABJAFCAAJAACdFCCCDCAAJAECiACJAICAAJABChVACAEJBBJ",
    "CBCAAJAACAAHAAJAAHAAJAACeNCJADCCBCADJAACDAJ8JCbIFCAAJAAHADCIACJFCABJACCbIFHAMCAAJABCmVAJAGCBFCAA",
    "JAACcSVCBAJAGCAAJABCAAJABCd6FCDACBBCBGCAAHAACcCEJBBCBBJAACAAJAACk7BCABJJBCAAHAAJbQBJAECDBJAACAAJ",
    "AACXACfgVPBAACGOClgILCACJACCcoAECb7GCbaYACBbWJHDCcRACLBJtfLBCBDBes8bNCCWCq+ACAAJACCDAJAECAHBAHCC",
    "GC+DCeUCCb37bWCEbRCIACOACWECBOCbkQGCBQCCGCBBCBECdEACfAGClXACb9DCp8DCh+BCxAGCdNGCce7ZIp7ECydaA-BA",
    "c-CAd-BAhPCAdqPB"])

/-- The folded names of the values of Word_Break. -/
def wordNames : Array (List String) :=
  #[["aletter", "le"], ["cr"], ["doublequote", "dq"], ["extend"], ["extendnumlet", "ex"],
    ["format", "fo"], ["hebrewletter", "hl"], ["katakana", "ka"], ["lf"], ["midletter", "ml"],
    ["midnum", "mn"], ["midnumlet", "mb"], ["newline", "nl"], ["numeric", "nu"],
    ["regionalindicator", "ri"], ["singlequote", "sq"], ["wsegspace"], ["zwj"]]

/-- The value of Word_Break for every character whose value is not `Other`. -/
def word : Table := .ofRuns
  (String.join [
    "KAIABMAABSAQBACEAPEAKBALBJNAAJAAKFZAEAEBZAKAMbEAACAFHAABAJCAAFWAB+ABo-AGbBAAdPDAEABBACDAAAKAAAGA",
    "AAAJACABAABTABcSABeKABGDAfFABbFACDABAAAAJAbIAAAKAAAGbMDBADBBDBBDBADI6GEDGAAAAAJLFFGBKCKDBAFDbKAA",
    "UDAJNBANAAKBBAAADAdCABAAAGDAAFBFDABAABDBDDABAAJNACACAAPAFAAAAADA9AA6DCcYAAKDAAAOJNAbAAAIDABACAKB",
    "AACADCVAADDAAAAIDAAAACDAAAAEDSYAACDEKAFXABFABBFFIDAbJAAXDAAFAbADAbVAACDAAAARDAAAAGDAJAABDCJNBPAA",
    "CDBHACBACVABGABAADDACADAAAAGDCBDCCDAAAIADEBABCAABDCJNABAKAABADCCDBFAEBACVABGABBABBABBACADBEDEBDC",
    "CDDADHDABAAHJNABDACAAADLCDBIABCABVABGABBABEACADAAAAHDBCDBCDCAAPBAABDCJNJAAAFDBCDBHACBACVABGABBAB",
    "EACADAAAAGDCBDCCDHCDEBABCAABDCJNBAAQADAAABFADCABDADBABAABBADBADCADLAEEDDCDBDDCAAGADOJNQEDAHABCAB",
    "WABPACADAAAAGDBCDBDDHBDBCACAACBAABDCJNQAAACDBHABCABWABJABEACADAAAAGDBCDBDDHBDGBABBAABDCJNBBAAADM",
    "DDAIABCABbIAABDAAAAGDBCDBDDAAAFCAAADHCAABDCJNKFABCDBRADXABIABAACGADADEFDBADBHDGJNCBDb9ADCGDMHDBJ",
    "NcXADCIDLGDBJNbGAAXBDGJNLADBADBADEBDAHABbDAETDBBDAEAAKDBbDDJADdETDBJNMDDECDBCDCGDDDDNLDBADAJNADD",
    "CbFABAAFAACbKABkMABDACGABAABDACbIABDACbAABDACGABAABDACOABbYABDACcCACCDbAPAQcVACFADtLACQAAAQAZAFc",
    "KADKAHRAADDJSAACDLRAABDMMABCABBDcA-DJADCJNbBCDAAFAADAJNGcYAHEAABDAbBAAADAAAFcFAK+ABLDELDKJNeAJNb",
    "GWAAEDbZJDB8DCADAJNGJNW+DbREDAbOAAQDAHADJNRIDMCDA9AAMDABAAJNAbLAANDMbDAATDIJNDCAAJNAbDACKAFbKACC",
    "AQCDBUDADAAADAFAAADABAACDAAAFf-AAb-DAiVACFACbFACFACHABAABAABAAB+ACbUABGABAADCABGADDACFAEMAFCABGA",
    "DGQBCQBADAARABFIBLKALCAJABMAEFAAEPBEDAKPAEKAQAEFBJFBAANAAQMAbTbADRAAEAACJABAADEAGAABAABAABDABKAC",
    "DAFEAEAARbIAzNbTAbyWhEAGDAACDABAMbFABAAFAACbXAHAAPADAWAJGABGABGABGABGABGABGABGAB-DbPAAoQAQEAAbEF",
    "DBEHFBAc8BDABHDc6HBDHFbKABc9AR-AbQPHgQbOHBcXH1fIbeMAcDbNACiMADPAAJNABAUbOAADDBJDB+AABDAcPAABDWgF",
    "ACBABAABHAVPAAADACAAADADAAADAWAAEDEADTbTAMBDAbRAARDKJNGRDAFADAABBAAADAJNA7AAHDCWAAMDM8ADDDAbOAAN",
    "DOAAAJNLADKJNGbIAANDJCAAADAHAABDCJNbBCDbSADBCDCBDFBDBAD+KAAEDCCAABDKFACFACFAJGABGABbZAGdSAAHDBBD",
    "CJNGk3DAMWAEbQAiyEGAMEAFAGAADAJGBMGBEGBAGBBGBBGBJGAdBAbBlKASb-ACbVAbILAEPDAAKCAJAAKLPDDBEYCEAAKB",
    "ALBAKAAJ6EABeGACAFHALEAKBALBJNAAJAAKFZAEAEBZALbXHABDA+ADFACFACFACCA8CFELABZABSABBABOACNAbCd6AcFb",
    "UAeIADeC8ADbQAPAD--AN9AFbFAAEDF9ACbDAEHABEAbKe9ACJNGbDAEbDAEbHAIbTAMKABOABGABBABKABOABGABBADbTAM",
    "jWAJVAKHAYFABbJABIAcFFACAABbLABBADAACWAKWAJ+AcBSABBAKVAKZAcGbXAGBAcAAAACDBBDFDDADABCAB8ACCDEADbA",
    "8AD8AbDHAB7AABDZbVAKVAKSANRAdOcIAbXbSANbSANbDAADDIJNGJNA7ADEDBWAh6bJABBDDBAQCAbXDDA8AKAAIVAAKD-R",
    "AADDbKUA7WAJCDAbUAAOD-JNAADABAABDAAAJDDAbMAAKDCAFEADKAFCYAHJNGCDAbDAANDBJNEAAABDAAAIbCAAADCAAJCD",
    "AbPAANDADAEDDBBDAJNAAABAAbDRABYAALDGADABAAADb+GABAABDABOABJAHbOAALDFJNGDDBHACBACVABGABBABEABBDAA",
    "AAGDCBDCCDCAAGADFEAABDCGDDEDLJABAACAABbFABAAAIDBADCADBDDBEDAAAAADAAANBD9bUAARDADAFJNEADACA+bPAAT",
    "DABABAAIJNfGbOAAGDCIDXDAABDbCbPAAQDDAALJNbGbKAAMDAAAHJNGTNbZODEJNgGbLAAODdFb-AAJNVHACAACHABBABXA",
    "AFDBBDCDDAAAAADAAAABDMJNcGHACbGAAGDCGDAAABAAAAD7AAAJDAbHAAGDAAAADDIADIAAAKDAbNAAPDDAAScIAgHbAAPJ",
    "NGIABbEAAHDBHDAAAPJNY9ACVDBNDcJGABBABbFAAFDDADBBDBGDAAAAADIJNGFABBAB-AAEDBBDBEDAAAHJNjWSAADDJBDA",
    "AAAADAMABbBAAGDDEDNJNAADcVAAcP2ZAdGdOARgDAcsMdAAPbbPAAPFAADAFAAODKd26AFsGAgvZ9AARDAJNbwGrYAH+ABJ",
    "NGcOABJNG9ACEDLbPAAGDJDAMJNJUAFSAnQbMADJNgGb-AeAcKAEADAAAAbWDHDDAMAcABABAAAADLBDhiNAAixQDHBGHBBH",
    "BAHi-CHbSAHODHcuYdKAFMADIAHJADBDBDFecMJNqGbNDCWDq+EDDFDAHFAHDCGD+DDeUCDn7cUABcGABBACAACBACDABLAB",
    "AABGABcAABDACHABGAB7ABDABEABAADGABkTACYABYAB+ABYAB+ABYAB+ABYAB+ABYABHACbRNqAbWDEbRDIADOADWEDBODb",
    "cQ+AGFAgVGDBQDCGDBBDBEDFb9AbBADdQbMADGDAGACJNEAAkB9AAADRbLAADDAJNoW7AADDAJNgW9AABDAAAAJNpFGABDAB",
    "BABOABgEALGDbJcDAAGDAAAEJNbfGDAB6ABBABAACAABJABDABAABAAGAAEAABAABAABCABBABAACAABAABAABAABAABBABA",
    "ACDABGABDABDABAABJABQAFCABEABQAtUZAGZAGZAc8ZOp7EDb5QJNybaHAF+c-DeAhPD"])

/-- The folded names of the values of Sentence_Break. -/
def sentenceNames : Array (List String) :=
  #[["aterm", "at"], ["cr"], ["close", "cl"], ["extend", "ex"], ["format", "fo"], ["lf"],
    ["lower", "lo"], ["numeric", "nu"], ["oletter", "le"], ["scontinue", "sc"], ["sterm", "st"],
    ["sep", "se"], ["sp"], ["upper", "up"]]

/-- The value of Sentence_Break for every character whose value is not `Other`. -/
def sentence : Table := .ofRuns
  (String.join [
    "JAMAAFABMAABSAMAAKAACECCCBJAAABJHAAJEAKBZNAACBACDZGAACBACHAL6AMJAGAACBAEHAGEAGAACEWNBGNAXGBHGAAN",
    "AAGAANAAGAANAAGAANAAGAANAAGAANAAGAANAAGAANAAGAANAAGAANAAGAANAAGAANAAGAANAAGAANAAGAANAAGAANAAGAAN",
    "AAGAANAAGAANAAGAANAAGAANAAGAANAAGAANAAGAANAAGAANAAGAANAAGAANAAGAANABGAANAAGAANAAGAANAAGAANAAGAAN",
    "AAGAANAAGAANAAGAANABGAANAAGAANAAGAANAAGAANAAGAANAAGAANAAGAANAAGAANAAGAANAAGAANAAGAANAAGAANAAGAAN",
    "AAGAANAAGAANAAGAANAAGAANAAGAANAAGAANAAGAANAAGAANAAGAANAAGAANAAGABNAAGAANAAGAANACGABNAAGAANAAGABN",
    "AAGACNABGADNAAGABNAAGACNACGABNAAGABNAAGAANAAGAANAAGABNAAGAANABGAANAAGABNAAGACNAAGAANAAGABNABGAAI",
    "AANACGADIABNAAGABNAAGABNAAGAANAAGAANAAGAANAAGAANAAGAANAAGAANAAGAANAAGAANABGAANAAGAANAAGAANAAGAAN",
    "AAGAANAAGAANAAGAANAAGAANAAGAANABGABNAAGAANAAGACNAAGAANAAGAANAAGAANAAGAANAAGAANAAGAANAAGAANAAGAAN",
    "AAGAANAAGAANAAGAANAAGAANAAGAANAAGAANAAGAANAAGAANAAGAANAAGAANAAGAANAAGAANAAGAANAAGAANAAGAANAAGAAN",
    "AAGAANAAGAANAAGAANAAGAANAAGAANAGGABNAAGABNABGAANAAGADNAAGAANAAGAANAAGAANAAGAANAcEGAAIAbDGAGIABGE",
    "LIOEGHAIBAIRdPDAANAAGAANAAGAAIBANAAGCDGBANGANBCNBANBBNAAGAQNBINAbCGAANABGACNACGAANAAGAANAAGAANAA",
    "GAANAAGAANAAGAANAAGAANAAGAANAAGAANAAGAANAAGAANAAGAANAEGAANAAGBANAAGABNABGAbSNAbPGAANAAGAANAAGAAN",
    "AAGAANAAGAANAAGAANAAGAANAAGAANAAGAANAAGAANAAGAANAAGAANAAGAANAAGAANAAGAANAAGAANAAGAANAAGBGDAANAAG",
    "AANAAGAANAAGAANAAGAANAAGAANAAGAANAAGAANAAGAANAAGAANAAGAANAAGAANAAGAANAAGAANAAGAANAAGAANAAGAANAAG",
    "AANAAGAANAAGAANAAGAANAAGAANAAGAANAAGAANAAGAANAAGAANAAGAANAAGABNAAGAANAAGAANAAGAANAAGAANAAGAANAAG",
    "AANABGAANAAGAANAAGAANAAGAANAAGAANAAGAANAAGAANAAGAANAAGAANAAGAANAAGAANAAGAANAAGAANAAGAANAAGAANAAG",
    "AANAAGAANAAGAANAAGAANAAGAANAAGAANAAGAANAAGAANAAGAANAAGAANAAGAANAAGAANAAGAANAAGAANAAGAANAAGAANAAG",
    "AANAAGAANAAGAANAAGAANAAGAANAAGAANAAGAANAAGAANAAGAANAAGAANAAGAANAAGAANAAGAANAAGAANAAGAANAAGAANAAG",
    "AANAAGBbFNCAIDAJCbIGAAKHbMDBADBBDBBDBADI6IEEIMFEGBJCKDBAEACKAbKIAUDAJHBBHBBIAADAdCIAAKAAIAGDAAEB",
    "FDABIABDBDDABIAJHACICAIACKMAEAAIAADA9IA6DCcYIAKDAAIOJHAbAIAIDABICAJAAKAAICADCVIADDAAIAIDAAIACDAA",
    "IAEDJAKBAKDBKBYIACDEKIFXIBFIBBEFIDAbJIAXDAAEAbADAbVIACDAAIARDAAIAGDAJIABDABKAJHBPIACDBHICBICVIBG",
    "IBAIDDICADAAIAGDCBDCCDAAIIADEBIBCIABDCJHABIKAIBADCCDBFIEBICVIBGIBBIBBIBBICADBEDEBDCCDDADHDIBAIHJ",
    "HABDACIAADLCDBIIBCIBVIBGIBBIBEICADAAIAHDBCDBCDCAIPBIABDCJHJAIAFDBCDBHICBICVIBGIBBIBEICADAAIAGDCB",
    "DCCDHCDEBIBCIABDCJHBAIQADAAIBFIDCIBDIDBIBAIBBIDBIDCIDLIEEDDCDBDDCAIGADOJHQEDAHIBCIBWIBPICADAAIAG",
    "DBCDBDDHBDBCICAICBIABDCJHQAIACDBHIBCIBWIBJIBEICADAAIAGDBCDBDDHBDGBIBBIABDCJHBBIAADMDDAIIBCIBbIIA",
    "BDAAIAGDBCDBDDAAIFCIAADHCIABDCJHKFIBCDBRIDXIBIIBAICGIDADEFDBADBHDGJHCBDNbPIAADABIAGDFGIAHDBJHbHB",
    "IBAIBEIBXIBAIBJIAADABIAIDAAICEIBAIBGDBJHCDIbAAIXBDGJHLADBADBADADCABDAHIBbDIETDBBDAEIAKDBbDDJADbZ",
    "bKIATDAAIAJHABKEFIADDADIACDAAIACDABIAGDACIADDAMIALDAAIAADAJHADDCbFNBANFANCbKIBAGAkLIBDICGIBAIBDI",
    "CbIIBDICbAIBDICGIBAIBDICOIBbYIBDICcCICCDCAKEBKXPIQcVNCFGDtLIBAKAQIAAMAZIABCDcKIDKIHRIADDJSIACDAB",
    "KJRIABDMMIBCIBBDMbTIA-DDAIEAIAADCJHYAJAAKEAJAAKBCDAAEAADAJHGcYIHEIABDAbBIAADAAIFcFIK+IBLDELDIBKA",
    "JHA9ICEILbLIEZIGJHbGWIAEDEbUIAJDB8DCADAJHGJHNAIADKE+DbREDAbOIAQDAHIDJHABKCBKLIDJBKBCDA9IAMDABIAJ",
    "HAbLIANDMbDIATDDBKDJHDCIAJHAbDIABKAIGAANAAGFbKICCIQCDBUDADIAADAFIAADABIACDAAIFf-GAb-DAANAAGAANAA",
    "GAANAAGAANAAGAANAAGAANAAGAANAAGAANAAGAANAAGAANAAGAANAAGAANAAGAANAAGAANAAGAANAAGAANAAGAANAAGAANAA",
    "GAANAAGAANAAGAANAAGAANAAGAANAAGAANAAGAANAAGAANAAGAANAAGAANAAGAANAAGAANAAGAANAAGAANAAGAANAAGAANAA",
    "GAANAAGAANAAGAANAAGAANAAGAANAAGAANAAGAANAAGAANAAGAANAAGAANAAGAANAAGAANAAGAANAAGAANAAGAANAAGAANAA",
    "GAANAAGAANAAGAANAAGAANAAGAANAAGAANAAGAANAAGAANAAGAANAAGAANAAGAANAAGAANAAGAANAAGAANAAGAANAAGAANAA",
    "GAANAAGAANAAGAANAAGAANAAGAANAAGAANAAGAANAAGAANAAGAANAIGAANAAGAANAAGAANAAGAANAAGAANAAGAANAAGAANAA",
    "GAANAAGAANAAGAANAAGAANAAGAANAAGAANAAGAANAAGAANAAGAANAAGAANAAGAANAAGAANAAGAANAAGAANAAGAANAAGAANAA",
    "GAANAAGAANAAGAANAAGAANAAGAANAAGAANAAGAANAAGAANAAGAANAAGAANAAGAANAAGAANAAGAANAAGAANAAGAANAAGAANAA",
    "GAANAAGAANAAGAANAAGAANAAGAANAAGAANAAGAANAAGAANAAGAANAAGAANAIGAHNAFGCFNCHGAHNAHGAHNAFGCFNCHGBANBA",
    "NBANBANAHGAHNANGCHGAHNAHGAHNAHGAHNAEGBBGAENBAGDCGBBGAENDDGCBGADNEHGAENFCGBBGAENDKMAAEABDABEDBJDH",
    "CEAADBLAEEAAMJBCBBKHBCACKVAMAEEBJEBAGLBCAAGNBCBMGbTbADRANEANCAGACNABGACNAAGBANDENGANBANBANBDNBAG",
    "ADNAAGADIAAGCBGABNFANADGEAGRPNAPGACIAANAAGADIl-DC9BCmLZNAZGtRFCHNCcPBC-JCmTVCb-DCbABCqCbPNAbPGAA",
    "NAAGACNABGAANAAGAANAAGAANAAGADNAAGAANABGAANAHGACNAAGAANAAGAANAAGAANAAGAANAAGAANAAGAANAAGAANAAGAA",
    "NAAGAANAAGAANAAGAANAAGAANAAGAANAAGAANAAGAANAAGAANAAGAANAAGAANAAGAANAAGAANAAGAANAAGAANAAGAANAAGAA",
    "NAAGAANAAGAANAAGAANAAGAANAAGAANAAGAANAAGAANAAGAANAAGAANAAGAANAAGAANAAGAANAAGAANAAGAANAAGAANAAGAA",
    "NAAGAANAAGAANAAGAANAAGAANAAGAANAAGAANAAGAANAAGAANAAGAANABGGANAAGAANAAGACDAANAAGMbFGBAGFAGCbXIHAI",
    "PADAWIJGIBGIBGIBGIBGIBGIBGIBGIB-DANCOBCCJCEAKAAIMAKFACQBKAHCnDAMAAJAAKCCIAJCCHCBCCBIIAFDBEICEIEc",
    "VICBDCCIBcZIBDIFbKIBc9IR-IbQPIqAgn-IcAvuMIcDbNIBAKAiMIBBKAPIAJHABIUANAAGAANAAGAANAAGAANAAGAANAAG",
    "AANAAGAANAAGAANAAGAANAAGAANAAGAANAAGAANAAGAANAAGAANAAGAANAAGAANAAGAANAAGAANAAGAANAAGAANAAGAANAAG",
    "AANAAGAANAAGAAIADDBJDBAIAANAAGAANAAGAANAAGAANAAGAANAAGAANAAGAANAAGAANAAGAANAAGAANAAGAANAAGAANAAG",
    "AANAAGAANACGABDAcPIABDBAKDAK-IICANAAGAANAAGAANAAGAANAAGAANAAGAANAAGAANACGAANAAGAANAAGAANAAGAANAA",
    "GAANAAGAANAAGAANAAGAANAAGAANAAGAANAAGAANAAGAANAAGAANAAGAANAAGAANAAGAANAAGAANAAGAANAAGAANAAGAANAA",
    "GAANAAGAANAAGAANAAGAANAAGAANAAGAANAAGAANAAGAANAAGAANAAGAANAAGAANAJGAANAAGAANAAGABNAAGAANAAGAANAA",
    "GAANAAGAANAAGAAICANAAGAANAAGAAIAANAAGAANACGAANAAGAANAAGAANAAGAANAAGAANAAGAANAAGAANAAGAANAAGAANAA",
    "GAANAAGAENAAGAENAAGAANAAGAANAAGAANAAGAANAAGAANAAGAANAAGAANAAGADNAAGAANAAGABNAAGCANAAGBAGBAGAANAA",
    "GAANAAGAANAAGAANVCGAANAAGAAIACGAGIAADACIAADADIAADAWIAEDEADTbTICBKIBDAbRIARDIBKAJHGRDAFIDAIBBIAAD",
    "AJHA7IAHDBAKAWIAMDM8IDDDAbOIANDHBKFAIAJHGEIAADAJIAJHAEIBbIIANDJCIAADAHIABDCJHDCKAWIDAIACDAbRIAAD",
    "AAIACDABIABDAEIABDAAIAADAAIYCICKIAEDABKACIABDKFICFICFIJGIBGIBbKGBNGGcPGAbCIAHDAAKABDCJHGk3DIMWIE",
    "bQIiiElNICdJIbGGGMEGFAIAADAJIBMIBEIBAIBBIBBIBdLIbBlKIABCQb-ICbVIbILIEPDABJBAJDBCHPDBBJCPCCBCHBJA",
    "AACAJABKAAJAFCEAJMEIBeGICAEBAKGBCCBJAAABJHAAJEAKBZNAACBACDZGAACBACBBCAAKABCAAJBbXIABDA+IDFICFICF",
    "ICCI8CEELIBZIBSIBBIBOICNIbCd6IcFbUIeIADeC8IDbQIPAD--IN9IFbFIAEDF9ICbDIEHIBEIbKbHNAbHGAcNICJHGbDN",
    "EbDGEbHIIbTIMKNBONBGNBBNBKGBOGBGGBBGDbTIMjWIJVIKHIYAGABIACGBbJGBIGcFFICAIBbLIBBIDAICWIKWIJ+IcBSI",
    "BBIKVIKZIcGbXIGBIcAAIACDBBDFDDADIBCIB8ICCDEADWBKI8ID8IbDHIB7IABDZbVIKVIKSINRIdOcIIbXbSNNbSGNbDIA",
    "DDIJHGJHAFIAVNDEDBAIAVGh6bJIBBDDBIQCIbXDDA8IKAIIVIAKDEEKWRIADDADKbGUI7WIJCDAbUIAODABK9JHAADABIAB",
    "DAAIJDDAbMIAKDCAEADKAADKAECYIHJHGCDAbDIANDBJHBCKAAIABDAAIIbCIAADCAIJCDAbPIANDADIABKCDDAAKABDAJHA",
    "AIBAIBBKbARIBYIALDABKBBKBADABIAADb+GIBAIBDIBOIBJIAAKGbOIALDFJHGDDBHICBICVIBGIBBIBEIBBDAAIAGDCBDC",
    "CDCAIGADFEIABDCGDDEDLJIBAICAIBbFIBAIAIDBADCADBDDBEDAAIAADAAINBD9bUIARDADIABKDJHEADACI+bPIATDABIB",
    "AIIJHfGbOIAGDCIDBBKFOKADIABDbCbPIAQDABKBAILJHbGbKIAMDAAIHJHGTH86ICODEJHCCKBGIfZbLIAODdF-NA-GAJHV",
    "HICAICHIBBIBXIAFDBBDCDDAAIAADAAIABDAAKBAKJJHcGHICbGIAGDCGDAAIBAIAAD7AIAJDAbHIAGDAAIADDDBKDADIAIA",
    "KDAbNIAPDBBKAAIScIIgHbAIPJHGIIBbEIAHDBHDAAIABKNJHY9ICVDBNDcJGIBBIBbFIAFDDADBBDBGDAAIAADIJHGFIBBI",
    "B-IAEDBBDBEDAAIHJHjWSIADDABKHBDAAIAADAMIBbBIAGDDEDABKLJHAADcVAIcP2ZIdGdOIRgDIcsMdAIPbbPIAPEAADAF",
    "IAODKd26IFsGIgvZ9IARDAJHbwGrYIH+IBJHEBKAcOIBJHG9ICEDAAKKbPIAGDABKHDIAAKLJHJUIFSInQbMIDJHgG-NA-GY",
    "AKdHcKIEADAAIAbWDHDDAMIcABIBAIAADLBDOf5XIIbgVIbJJIixHDIBGIBBIBjCIPAI9CICAIODIImLIciEdKIFMIDIIHJI",
    "DBDAAKADEecMJHqGbNDCWDq+EDDFDAHEAHDCGD+DDeUCDn7ZNAZGAZNAGGBRGAZNAZGAANBBNCANCBNCDNBHNADGBAGBGGBK",
    "GAZNAZGABNBDNCHNBGNBZGABNBDNBENBANDGNBZGAZNAZGAZNAZGAZNAZGAZNAZGAZNAZGAZNA7GCYNBYGBFGAYNBYGBFGAY",
    "NBYGBFGAYNBYGBFGAYNBYGBFGAANAAGCbRHqAbWDEbRDIADOADDAKSEDBODbcQJGAAIATGGFGgVGDBQDCGDBBDBEDFb9GbBA",
    "DdQbMIDGDAGICJHEAIkB9IAADRbLIADDAJHoW7IADDAJHgW9IABDAAIAJHpFGIBDIBBIBOIBgEILGDbJbBNAbBGAGDAAIEJH",
    "bfGDIB6IBBIBAICAIBJIBDIBAIBAIGAIEAIBAIBAIBCIBBIBAICAIBAIBAIBAIBAIBBIBAICDIBGIBDIBDIBAIBJIBQIFCIB",
    "EIBQItUZNGZNGZNbhMCCblXJHbaGbjw-IbAebZIGg9ICfuBIOhjQIPtNIcnCq9IbpCe0KIFec-IvxcRAE+c-DeAhPD"])

/-- The characters assigned in the version of the given folded name or before. -/
def assignedBy? (version : String) : Option (Char → Bool) := do
  let i ← ages.findIdx? (·.contains version)
  some fun c => (age.find? c.toNat).any (· ≤ i)

/-- The characters with the value of the given folded name. -/
def valued? (names : Array (List String)) (table : Table) (name : String) :
    Option (Char → Bool) := do
  let i ← names.findIdx? (·.contains name)
  some fun c => table.find? c.toNat == some i

end Amend.Unicode.Break
